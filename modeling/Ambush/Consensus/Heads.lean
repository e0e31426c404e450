import Mathlib.Logic.Relation
import Ambush.Consensus.Calls
import Ambush.Consensus.Transport
/-!
# The hash a round commits on top of

Whatever a transport delivers, the commit `drive_round` returns is built on the hash the
node started from, through every commit the node made on the way: a later-round message
can make a committee of one commit without returning it.
-/
open Lib Relation

namespace Ambush.Consensus

open ConsensusNode

/-- `h'` is the hash of a commit on top of `h`. -/
def Extends (c : Crypto) (h h' : String) : Prop := ∃ height round p, h' = commit_hash c height round h p

section Calls
variable {c : Crypto} {n n' : ConsensusNode}

theorem Does.head {e : Effect} (h : Does c n e n') :
    n'.previous_commit_hash = n.previous_commit_hash ∧ (∀ p cm, e ≠ .commit p cm) ∨
      ∃ p cm, e = .commit p cm ∧ cm.commit_hash = n'.previous_commit_hash ∧
        Extends c n.previous_commit_hash n'.previous_commit_hash := by
  cases h with
  | commit t hr hp hv hc => exact .inr ⟨_, _, rfl, rfl, _, _, _, rfl⟩
  | cast => rename_i k _ _ _ _ _ _; cases k <;> exact .inl ⟨rfl, by simp⟩
  | spoil => rename_i k _ _ _ _ _; cases k <;> exact .inl ⟨rfl, by simp⟩
  | hear => rename_i k _ _ _ _ _; cases k <;> exact .inl ⟨rfl, by simp⟩
  | _ => exact .inl ⟨rfl, by simp⟩

/-- A run of effects moves the head along `Extends`, and each of its commits lies on the way. -/
theorem run_head {es : List Effect} (h : Run (Does c) n es n') :
    ReflTransGen (Extends c) n.previous_commit_hash n'.previous_commit_hash ∧
      ∀ p cm, .commit p cm ∈ es → TransGen (Extends c) n.previous_commit_hash cm.commit_hash := by
  induction h with
  | nil => exact ⟨.refl, by simp⟩
  | @cons s t u a as hs _ ih =>
    rcases hs.head with ⟨heq, hne⟩ | ⟨p, cm, rfl, hcm, hext⟩
    · rw [← heq]
      exact ⟨ih.1, fun p cm hmem => ih.2 p cm ((List.mem_cons.1 hmem).resolve_left fun h => hne p cm h.symm)⟩
    · refine ⟨.head hext ih.1, fun p' cm' hmem => ?_⟩
      rcases List.mem_cons.1 hmem with heq | hmem
      · cases heq
        rw [hcm]
        exact .single hext
      · exact .head hext (ih.2 p' cm' hmem)

/-- What a call does to the head: it stays on the way, and so do the returned commits. -/
def Heads (c : Crypto) (n : ConsensusNode) (out : Outcome) : Prop :=
  ReflTransGen (Extends c) n.previous_commit_hash out.1.previous_commit_hash ∧
    ∀ cm ∈ (returned out.2).commits, TransGen (Extends c) n.previous_commit_hash cm.commit_hash

theorem Heads.after {out : Outcome} (h : ReflTransGen (Extends c) n.previous_commit_hash n'.previous_commit_hash)
    (h' : Heads c n' out) : Heads c n out :=
  ⟨h.trans h'.1, fun cm hcm => .trans_right h (h'.2 cm hcm)⟩

theorem Does.follows {e : Effect} (h : Does c n e n') :
    ReflTransGen (Extends c) n.previous_commit_hash n'.previous_commit_hash := (run_head (.single h)).1

theorem heads_silent (c : Crypto) (n : ConsensusNode) {res : Except ConsensusError ConsensusProgress} (h : silent res) :
    Heads c n (n, res) := ⟨.refl, by simp [h.2]⟩

theorem Acts.heads {out : Outcome} {r : Nat} {mp : Prop} (h : Acts c n out r mp) : Heads c n out := by
  obtain ⟨es, n₁, hrun, -, -, ⟨heq, hcom⟩ | ⟨p, cm, hdo, -, hcom⟩⟩ := h
  · exact .after (run_head hrun).1 ⟨by rw [heq], by simp [hcom]⟩
  · obtain ⟨h1, h2⟩ := run_head (.single hdo)
    exact .after (run_head hrun).1 ⟨h1, fun cm' hcm' => by rw [hcom cm' hcm']; exact h2 p cm (by simp)⟩

theorem Reaches.heads {out : Outcome} {r : Nat} (h : Reaches c n r out) : Heads c n out := by
  rcases h with ⟨-, rfl⟩ | ⟨-, n₁, hdo, hact⟩
  · exact heads_silent c n silent_empty
  · exact .after hdo.follows hact.heads

theorem Called.heads {input : Input} {out : Outcome} (h : Called c n input out) : Heads c n out := by
  cases h with
  | queue hpend _ hact => exact .after hpend.follows hact.heads
  | wait => exact heads_silent c n silent_empty
  | timeout _ hreach => exact hreach.heads
  | deliver hdel =>
    cases hdel with
    | ignored hres => exact heads_silent c n hres
    | excluded hres => exact .after Does.exclude.follows (heads_silent c _ hres)
    | unread hsee hres => exact .after hsee.follows (heads_silent c _ hres)
    | read hsee _ hreach htake hact =>
      refine .after (hsee.follows.trans hreach.heads.1) (.after ?_ hact.heads)
      rcases htake with rfl | ⟨e, -, hdo⟩
      · exact .refl
      · exact hdo.follows

end Calls

/-! ## Driving a round -/

section Drive
variable {c : Crypto} {T : ConsensusTransport} {h : String}

/-- Where the drive stands: its node is on the way from `h`, or the commit it returns is. -/
def Turn.Follows (c : Crypto) (h : String) : Turn T → Prop
  | .go d => ReflTransGen (Extends c) h d.node.previous_commit_hash
  | .done _ result => ∀ commit, result = .ok commit → TransGen (Extends c) h commit.commit_hash

theorem settle_follows {d : Drive T} {out : Outcome} {n : ConsensusNode}
    (hn : ReflTransGen (Extends c) h n.previous_commit_hash) (hout : Heads c n out) : (settle c T d out).Follows c h := by
  obtain ⟨n', res⟩ := out
  cases res with
  | error x => simp [settle, Turn.Follows]
  | ok progress =>
    simp only [settle]
    split
    · rename_i commit _ hcommits
      have hcommit := hout.2 commit (by simp [returned, hcommits])
      split
      · simp [Turn.Follows]
      · rintro _ ⟨⟩
        exact .trans_right hn hcommit
    · exact hn.trans hout.1

theorem receive_follows (bound : Nat) {d : Drive T} (inbound : List ConsensusSignedEnvelope)
    (hd : ReflTransGen (Extends c) h d.node.previous_commit_hash) : (receive c T bound d inbound).Follows c h := by
  induction inbound generalizing d with
  | nil => exact hd
  | cons e es ih =>
    simp only [receive]
    split
    · simp [Turn.Follows]
    · have hs := settle_follows (T := T) (d := { d with handled_inbound := satAdd d.handled_inbound 1 }) hd
        (Called.deliver (t := d.now_ms) (handle_signed_envelope_handled c d.node e d.now_ms).delivered).heads
      split
      · rename_i t result heq
        rw [heq] at hs
        exact hs
      · rename_i d' heq
        rw [heq] at hs
        exact ih hs

theorem pass_follows {bound : Nat} {d : Drive T} {turn : Turn T} (hp : pass c T bound d = some turn)
    (hd : ReflTransGen (Extends c) h d.node.previous_commit_hash) : turn.Follows c h := by
  unfold pass at hp
  split at hp
  · cases hp; simp [Turn.Follows]
  split at hp
  · cases hp; simp [Turn.Follows]
  rename_i t₁ inbound _
  have hr := receive_follows (d := { d with transport := t₁, outbound := [] }) bound inbound hd
  split at hp
  · rename_i heq
    rw [heq] at hr
    cases hp
    exact hr
  · rename_i d' heq
    rw [heq] at hr
    split at hp
    · cases hp; exact hr
    split at hp
    · cases hp; simp [Turn.Follows]
    obtain ⟨out, htick, rfl⟩ := Option.map_eq_some_iff.1 hp
    exact settle_follows hr (call_called (show d'.node.call c (.tick _) = some out from htick)).heads

theorem drive_loop_follows {bound fuel : Nat} {d : Drive T} {t : T.State} {commit : ConsensusCommit}
    (hl : drive_loop c T bound fuel d = some (t, .ok commit))
    (hd : ReflTransGen (Extends c) h d.node.previous_commit_hash) : TransGen (Extends c) h commit.commit_hash := by
  induction fuel generalizing d with
  | zero => simp [drive_loop] at hl
  | succ fuel ih =>
    simp only [drive_loop] at hl
    split at hl
    · cases hl
    · rename_i hp
      cases hl
      exact pass_follows hp hd commit rfl
    · rename_i d' hp
      exact ih hl (pass_follows hp hd)

/-- The commit of a driven round is built on the node's head. -/
theorem drive_round_extends {fuel : Nat} {node : ConsensusNode} {t t' : T.State} {proposal : ConsensusProposal}
    {started_at_ms : Int} {commit : ConsensusCommit}
    (hd : drive_round c T fuel node t proposal started_at_ms = some (t', .ok commit)) :
    TransGen (Extends c) node.previous_commit_hash commit.commit_hash := by
  unfold drive_round at hd
  split at hd
  · cases hd
  rename_i t₁ _
  have hcall : node.call c (.queue proposal started_at_ms) = some (node.queue_proposal c proposal started_at_ms) := rfl
  have hs := settle_follows (T := T) (d := ⟨node, t₁, started_at_ms, [], 0⟩) .refl (call_called hcall).heads
  split at hd
  · rename_i heq
    rw [heq] at hs
    cases hd
    exact hs commit rfl
  · rename_i d heq
    rw [heq] at hs
    exact drive_loop_follows hd hs

end Drive
end Ambush.Consensus
