import Ambush.Consensus.Agreement
/-!
# Exclusion

An envelope that does not verify costs its declared sender the round, and nobody else
anything. A member is excluded only through envelopes that name it, so one whose
envelopes all verify and never differ under one key is never excluded and keeps its
recorded votes until a commit clears them.
-/
open Lib Relation

namespace Ambush.Consensus

open ConsensusNode

/-- The two states differ in what they hold of `a` only. -/
structure Spares (c : Crypto) (a : AgentId) (n n' : ConsensusNode) : Prop where
  epoch : n'.epoch = n.epoch
  round : n'.round = n.round
  proposals : ∀ r, n.committee.proposer_for c n.previous_commit_hash r ≠ .ok a → n'.proposals r = n.proposals r
  votes : ∀ k r b, b ≠ a → n'.choice k r b = n.choice k r b
  seen : ∀ key, key.sender ≠ a → n'.seen_signed_messages key = n.seen_signed_messages key
  excluded : ∀ h r b, b ≠ a → n'.is_excluded h r b = n.is_excluded h r b

theorem Spares.refl (c : Crypto) (a : AgentId) (n : ConsensusNode) : Spares c a n n :=
  ⟨rfl, rfl, fun _ _ => rfl, fun _ _ _ _ => rfl, fun _ _ => rfl, fun _ _ _ _ => rfl⟩

theorem is_excluded_excluding (c : Crypto) (n : ConsensusNode) (h r h' r' : Nat) (a b : AgentId) :
    (n.excluding c h r a).is_excluded h' r' b = (decide ((h', r') = (h, r) ∧ b = a) || n.is_excluded h' r' b) := by
  simp only [is_excluded, excluding, drop_sender_round_contributions, Map.insert_apply]
  by_cases hkey : (h', r') = (h, r)
  · cases hkey
    simp
  · simp [hkey]

theorem spares_excluding (c : Crypto) (n : ConsensusNode) (h r : Nat) (a : AgentId) : Spares c a n (n.excluding c h r a) where
  epoch := rfl
  round := rfl
  proposals r' hlead := by
    simp only [excluding, drop_sender_round_contributions]
    split
    · rename_i heq
      refine Map.remove_ne _ _ _ ?_
      rintro rfl
      exact hlead heq
    · rfl
  votes k r' b hb := by
    rw [choice_excluding, if_neg (fun h' => hb h'.2)]
  seen key hkey := by
    simp only [excluding, drop_sender_round_contributions, Map.retain_apply]
    rw [if_pos]
    simp [hkey]
  excluded h' r' b hb := by
    rw [is_excluded_excluding]
    simp [hb]

/-- The declared sender of an envelope that does not verify is all it can touch. -/
theorem unverified_spares (c : Crypto) (n : ConsensusNode) {e : ConsensusSignedEnvelope} (he : e.verifies c = false) (t : Int) :
    Spares c e.envelope.message.sender n (n.handle_signed_envelope c e t).1 := by
  have hverified : ∀ n₁, ¬ Does c n (.see e) n₁ := by
    rintro n₁ (_ | _)
    simp_all
  have hdel := (handle_signed_envelope_handled c n e t).delivered
  generalize n.handle_signed_envelope c e t = out at hdel
  cases hdel with
  | ignored => exact .refl c _ n
  | excluded => exact spares_excluding c n _ _ _
  | unread hsee => exact absurd hsee (hverified _)
  | read hsee => exact absurd hsee (hverified _)

/-- The first envelope under its key that does not verify excludes its declared sender. -/
theorem unverified_excludes (c : Crypto) (n : ConsensusNode) {e : ConsensusSignedEnvelope} (he : e.verifies c = false) (t : Int)
    (hseen : n.seen_signed_messages (.from_message e.envelope.message) = none) :
    (n.handle_signed_envelope c e t).1.is_excluded e.envelope.message.height e.envelope.message.round
      e.envelope.message.sender = true := by
  unfold handle_signed_envelope
  dsimp only
  split
  · rename_i hex; exact hex
  rw [hseen]
  simp only [he, Bool.not_false, if_true]
  have hex : (n.excluding c e.envelope.message.height e.envelope.message.round e.envelope.message.sender).is_excluded
      e.envelope.message.height e.envelope.message.round e.envelope.message.sender = true := by
    rw [is_excluded_excluding]; simp
  unfold exclude_sender
  dsimp only
  split
  · exact hex
  · exact hex

/-! ## Whole runs -/

/-- A call on a node, whatever it returns. -/
def Calls (c : Crypto) (n : ConsensusNode) (input : Input) (n' : ConsensusNode) : Prop :=
  ∃ res, n.call c input = some (n', res)

theorem calls_deliver (c : Crypto) (n : ConsensusNode) (e : ConsensusSignedEnvelope) (t : Int) :
    Calls c n (.deliver e t) (n.handle_signed_envelope c e t).1 := ⟨_, rfl⟩

/-- Everything delivered in the name of `a` verifies, and one key has one envelope. -/
structure SpeaksOnce (c : Crypto) (a : AgentId) (inputs : List Input) : Prop where
  verifies : ∀ e t, .deliver e t ∈ inputs → e.envelope.message.sender = a → e.verifies c = true
  agrees : ∀ e t e' t', .deliver e t ∈ inputs → .deliver e' t' ∈ inputs → e.envelope.message.sender = a →
    SignedMessageKey.from_message e.envelope.message = .from_message e'.envelope.message → e = e'

/-- An effect that excludes nobody, and sees only what the call delivers. -/
def Effect.Harmless (input : Input) : Effect → Prop
  | .exclude _ _ _ => False
  | .see e => ∃ t, input = .deliver e t
  | _ => True

theorem Acts.harmless {c : Crypto} {n : ConsensusNode} {out : Outcome} {r : Nat} {mp : Prop} (h : Acts c n out r mp)
    (input : Input) : ∃ es, Run (Does c) n es out.1 ∧ ∀ e ∈ es, e.Harmless input := by
  obtain ⟨es, n₁, hrun, hsp, -, hend⟩ := h
  have hes : ∀ e ∈ es, e.Harmless input := by
    intro e he
    have := hsp e he
    cases e <;> trivial
  rcases hend with ⟨heq, -⟩ | ⟨p, cm, hdo, -⟩
  · exact ⟨es, heq ▸ hrun, hes⟩
  · refine ⟨es ++ [.commit p cm], hrun.append (.single hdo), fun e he => ?_⟩
    rcases List.mem_append.1 he with he | he
    · exact hes e he
    · rw [List.mem_singleton] at he
      subst he; trivial

theorem Reaches.harmless {c : Crypto} {n : ConsensusNode} {r : Nat} {out : Outcome} (h : Reaches c n r out) (input : Input) :
    ∃ es, Run (Does c) n es out.1 ∧ ∀ e ∈ es, e.Harmless input := by
  rcases h with ⟨-, rfl⟩ | ⟨-, n₁, hdo, hact⟩
  · exact ⟨[], .nil, by simp⟩
  · obtain ⟨es, hrun, hes⟩ := hact.harmless input
    exact ⟨.enter r :: es, .cons hdo hrun, by simpa [Effect.Harmless] using hes⟩

/-- A call excludes the sender of an envelope that offends, or it excludes nobody. -/
theorem Called.harmless {c : Crypto} {n : ConsensusNode} {input : Input} {out : Outcome} (h : Called c n input out) :
    (∃ e t, input = .deliver e t ∧ Offends c n e ∧ out.1 = n.excluding c e.envelope.message.height
      e.envelope.message.round e.envelope.message.sender) ∨
    ∃ es, Run (Does c) n es out.1 ∧ ∀ e ∈ es, e.Harmless input := by
  cases h with
  | @queue p t _ _ hpend _ hact =>
    obtain ⟨es, hrun, hes⟩ := hact.harmless (.queue p t)
    exact .inr ⟨.pend :: es, .cons hpend hrun, by simpa [Effect.Harmless] using hes⟩
  | wait => exact .inr ⟨[], .nil, by simp⟩
  | timeout _ hreach => exact .inr (hreach.harmless _)
  | @deliver e t _ hdel =>
    cases hdel with
    | ignored => exact .inr ⟨[], .nil, by simp⟩
    | excluded _ hoff => exact .inl ⟨e, t, rfl, hoff, rfl⟩
    | unread hsee => exact .inr ⟨[.see e], .single hsee, by simp [Effect.Harmless]⟩
    | @read n₃ adv _ hsee _ hreach htake hact =>
      obtain ⟨es₁, hrun₁, hes₁⟩ := hreach.harmless (.deliver e t)
      obtain ⟨es₂, hrun₂, hes₂⟩ := hact.harmless (.deliver e t)
      obtain ⟨es, hrun, hes⟩ : ∃ es, Run (Does c) adv.1 es n₃ ∧ ∀ x ∈ es, Effect.Harmless (.deliver e t) x := by
        rcases htake with rfl | ⟨x, hx, hdo⟩
        · exact ⟨[], .nil, by simp⟩
        · refine ⟨[x], .single hdo, fun y hy => ?_⟩
          rw [List.mem_singleton] at hy
          subst hy
          cases y <;> trivial
      refine .inr ⟨.see e :: (es₁ ++ (es ++ es₂)), .cons hsee (hrun₁.append (hrun.append hrun₂)), fun x hx => ?_⟩
      simp only [List.mem_cons, List.mem_append] at hx
      rcases hx with rfl | hx | hx | hx
      · exact ⟨t, rfl⟩
      · exact hes₁ x hx
      · exact hes x hx
      · exact hes₂ x hx

/-- What harmless effects leave alone: exclusions, seen envelopes but the delivered one,
and recorded votes unless they commit. -/
structure Keeps (c : Crypto) (input : Input) (n n' : ConsensusNode) : Prop where
  excluded : n'.excluded_members = n.excluded_members
  seen : ∀ key e, n'.seen_signed_messages key = some e → n.seen_signed_messages key = some e ∨
    key = .from_message e.envelope.message ∧ ∃ t, input = .deliver e t
  votes : (n'.epoch = n.epoch ∧ ∀ k r b v, n.choice k r b = some v → n'.choice k r b = some v) ∨
    TransGen (Builds c) n.epoch n'.epoch

theorem Keeps.of_votes {c : Crypto} {n n' : ConsensusNode} (input : Input) (hex : n'.excluded_members = n.excluded_members)
    (hseen : n'.seen_signed_messages = n.seen_signed_messages) (hep : n'.epoch = n.epoch)
    (hv : ∀ k r b v, n.choice k r b = some v → n'.choice k r b = some v) : Keeps c input n n' :=
  ⟨hex, fun _ _ he => .inl (hseen ▸ he), .inl ⟨hep, hv⟩⟩

theorem Keeps.trans {c : Crypto} {input : Input} {n n₁ n₂ : ConsensusNode} (h : Keeps c input n n₁)
    (h' : Keeps c input n₁ n₂) : Keeps c input n n₂ := by
  refine ⟨h'.excluded.trans h.excluded, fun key e he => ?_, ?_⟩
  · rcases h'.seen key e he with he | he
    · exact h.seen key e he
    · exact .inr he
  · rcases h.votes with ⟨hep, hv⟩ | hb <;> rcases h'.votes with ⟨hep', hv'⟩ | hb'
    · exact .inl ⟨hep'.trans hep, fun k r b v hc => hv' k r b v (hv k r b v hc)⟩
    · exact .inr (hep ▸ hb')
    · exact .inr (hep' ▸ hb)
    · exact .inr (hb.trans hb')

/-- A recorded vote outlasts the recording of any other. -/
theorem choice_hears_mono (n : ConsensusNode) (k k' : VoteKind) (r r' : Nat) (a b : AgentId) (v w : Option String)
    (h : n.choice k' r' b = some w) : (n.hears k r a v).choice k' r' b = some w := by
  rw [choice_hears, if_neg]
  · exact h
  · rintro ⟨rfl, rfl, rfl, hnone⟩
    rw [hnone] at h; cases h

theorem Does.keeps {c : Crypto} {n n' : ConsensusNode} {e : Effect} {input : Input} (hd : Does c n e n')
    (he : e.Harmless input) : Keeps c input n n' := by
  have hvoted : ∀ k r v, Keeps c input n ((n.mark k r).hears k r n.local_agent_id v) := by
    intro k r v
    have hst := (still_mark n k r).trans (still_hears _ k r n.local_agent_id v)
    exact .of_votes input hst.excluded hst.seen hst.epoch
      (fun k' r' b w h => choice_hears_mono _ _ _ _ _ _ _ _ _ (by rw [choice_mark]; exact h))
  cases hd with
  | pend => exact .of_votes input rfl rfl rfl (fun _ _ _ _ h => h)
  | enter => exact .of_votes input rfl rfl rfl (fun _ _ _ _ h => h)
  | propose => exact .of_votes input rfl rfl rfl (fun _ _ _ _ h => h)
  | store => exact .of_votes input rfl rfl rfl (fun _ _ _ _ h => h)
  | cast => exact hvoted _ _ _
  | spoil => exact hvoted _ _ _
  | @hear k r a v hr ha =>
    have hst := still_hears n k r a v
    exact .of_votes input hst.excluded hst.seen hst.epoch (fun _ _ _ _ h => choice_hears_mono _ _ _ _ _ _ _ _ _ h)
  | @commit r p t => exact ⟨rfl, fun key e he => .inl he, .inr (.single ⟨r, p, rfl⟩)⟩
  | exclude => exact he.elim
  | @see e hn hv =>
    refine ⟨rfl, fun key x hx => ?_, .inl ⟨rfl, fun k r b v h => by cases k <;> exact h⟩⟩
    simp only [seeing, Map.insert_apply] at hx
    split at hx
    · rename_i hkey
      cases hx
      exact .inr ⟨hkey, he⟩
    · exact .inl hx

theorem run_keeps {c : Crypto} {n n' : ConsensusNode} {es : List Effect} {input : Input} (h : Run (Does c) n es n')
    (hes : ∀ e ∈ es, e.Harmless input) : Keeps c input n n' := by
  induction h with
  | nil => exact .of_votes input rfl rfl rfl (fun _ _ _ _ h => h)
  | cons hs _ ih => exact (hs.keeps (hes _ (by simp))).trans (ih (fun e h => hes e (List.mem_cons_of_mem _ h)))

/-- A member that has not been excluded, and whose seen envelopes were delivered. -/
structure Clear (a : AgentId) (past : List Input) (n : ConsensusNode) : Prop where
  admitted : ∀ h r, n.is_excluded h r a = false
  seen : ∀ key e, n.seen_signed_messages key = some e →
    key = .from_message e.envelope.message ∧ ∃ t, .deliver e t ∈ past

/-- A call on a node that has not excluded `a` does not exclude it, and keeps its votes. -/
theorem Clear.call {c : Crypto} {a : AgentId} {past : List Input} {n n' : ConsensusNode} {input : Input}
    (h : Clear a past n) (hs : Calls c n input n') (honce : SpeaksOnce c a (past ++ [input])) :
    Clear a (past ++ [input]) n' ∧
      (n'.epoch = n.epoch ∧ (∀ k r v, n.choice k r a = some v → n'.choice k r a = some v) ∨
        TransGen (Builds c) n.epoch n'.epoch) := by
  obtain ⟨res, hcall⟩ := hs
  rcases (call_called hcall).harmless with ⟨e, t, rfl, hoff, rfl⟩ | ⟨es, hrun, hes⟩
  · -- the envelope offends, so it does not name `a`
    have hne : a ≠ e.envelope.message.sender := by
      intro ha
      unfold Offends at hoff
      split at hoff
      · rename_i previous hseen
        obtain ⟨hkey, t', hpast⟩ := h.seen _ _ hseen
        exact hoff (honce.agrees e t previous t' (by simp) (by simp [hpast]) ha.symm hkey).symm
      · rw [honce.verifies e t (by simp) ha.symm] at hoff
        cases hoff
    have hsp := spares_excluding c n e.envelope.message.height e.envelope.message.round e.envelope.message.sender
    refine ⟨⟨fun h' r' => ?_, fun key x hx => ?_⟩, .inl ⟨rfl, fun k r v hc => ?_⟩⟩
    · rw [hsp.excluded h' r' a hne]; exact h.admitted h' r'
    · simp only [excluding, drop_sender_round_contributions] at hx
      obtain ⟨hkey, t', hpast⟩ := h.seen key x (Map.retain_eq_some.1 hx).2
      exact ⟨hkey, t', by simp [hpast]⟩
    · rw [hsp.votes k r a hne]; exact hc
  · have hk := run_keeps hrun hes
    refine ⟨⟨fun h' r' => ?_, fun key x hx => ?_⟩, ?_⟩
    · have := h.admitted h' r'
      simp only [is_excluded] at this ⊢
      rw [hk.excluded]; exact this
    · rcases hk.seen key x hx with hx | ⟨hkey, t, rfl⟩
      · obtain ⟨hkey, t', hpast⟩ := h.seen key x hx
        exact ⟨hkey, t', by simp [hpast]⟩
      · exact ⟨hkey, t, by simp⟩
    · exact hk.votes.imp_left (fun hv => ⟨hv.1, fun k r v hc => hv.2 k r a v hc⟩)

theorem SpeaksOnce.mono {c : Crypto} {a : AgentId} {inputs inputs' : List Input} (h : SpeaksOnce c a inputs)
    (hsub : inputs' ⊆ inputs) : SpeaksOnce c a inputs' :=
  ⟨fun e t he => h.verifies e t (hsub he), fun e t e' t' he he' => h.agrees e t e' t' (hsub he) (hsub he')⟩

/-- Over a run the member stays clear, and between two of its states its votes are kept
or a commit has cleared them. -/
theorem Clear.run {c : Crypto} {a : AgentId} {past inputs : List Input} {n n' : ConsensusNode} (h : Clear a past n)
    (hrun : Run (Calls c) n inputs n') (honce : SpeaksOnce c a (past ++ inputs)) :
    Clear a (past ++ inputs) n' ∧
      (n'.epoch = n.epoch ∧ (∀ k r v, n.choice k r a = some v → n'.choice k r a = some v) ∨
        TransGen (Builds c) n.epoch n'.epoch) := by
  have key := hrun.inv_past past
    (I := fun s done => done ⊆ past ++ inputs ∧ Clear a done s ∧
      (s.epoch = n.epoch ∧ (∀ k r v, n.choice k r a = some v → s.choice k r a = some v) ∨
        TransGen (Builds c) n.epoch s.epoch))
    (fun s done input t hmem hI hs => ?_) ⟨by simp, h, .inl ⟨rfl, fun _ _ _ hc => hc⟩⟩
  · exact key.2
  · obtain ⟨hsub, hclear, hvotes⟩ := hI
    have hsub' : done ++ [input] ⊆ past ++ inputs :=
      List.append_subset.2 ⟨hsub, by simpa using Or.inr hmem⟩
    obtain ⟨hclear', hvotes'⟩ := hclear.call hs (honce.mono hsub')
    refine ⟨hsub', hclear', ?_⟩
    rcases hvotes with ⟨hep, hv⟩ | hb <;> rcases hvotes' with ⟨hep', hv'⟩ | hb'
    · exact .inl ⟨hep'.trans hep, fun k r v hc => hv' k r v (hv k r v hc)⟩
    · exact .inr (hep ▸ hb')
    · exact .inr (hep' ▸ hb)
    · exact .inr (hb.trans hb')

theorem clear_new {n : ConsensusNode} (a : AgentId) (hex : n.excluded_members = .empty)
    (hseen : n.seen_signed_messages = .empty) : Clear a [] n :=
  ⟨fun h r => by simp [is_excluded, hex], fun key e he => by rw [hseen] at he; cases he⟩

/-- An envelope that does not verify excludes its declared sender for that round and
touches no one else. A member in whose name only verifying envelopes are delivered, one
for each key, is never excluded, and its recorded votes stay until a commit. -/
theorem exclusion_by_own_name_only (c : Crypto) :
    (∀ n e t, e.verifies c = false →
      Spares c e.envelope.message.sender n (n.handle_signed_envelope c e t).1 ∧
      (n.seen_signed_messages (.from_message e.envelope.message) = none →
        (n.handle_signed_envelope c e t).1.is_excluded e.envelope.message.height e.envelope.message.round
          e.envelope.message.sender = true)) ∧
    ∀ a inputs inputs' n₀ n n', (∃ id key k config previous t, new_internal id key k config previous t = .ok n₀) →
      Run (Calls c) n₀ inputs n → Run (Calls c) n inputs' n' → SpeaksOnce c a (inputs ++ inputs') →
      (∀ h r, n'.is_excluded h r a = false) ∧
      ∀ k r v, n.choice k r a = some v → n'.choice k r a = some v ∨ TransGen (Builds c) n.epoch n'.epoch := by
  refine ⟨fun n e t he => ⟨unverified_spares c n he t, unverified_excludes c n he t⟩, ?_⟩
  rintro a inputs inputs' n₀ n n' ⟨_, _, _, _, _, _, hnew⟩ hrun hrun' honce
  obtain ⟨-, -, -, -, -, -, -, hseen, hex, -⟩ := new_internal_ok hnew
  have hclear := ((clear_new a hex hseen).run hrun (honce.mono (by simp))).1
  obtain ⟨hclear', hvotes⟩ := hclear.run hrun' (by simpa using honce)
  refine ⟨hclear'.admitted, fun k r v hc => ?_⟩
  rcases hvotes with ⟨-, hv⟩ | hb
  · exact .inl (hv k r v hc)
  · exact .inr hb

theorem first_seat : seat "a" ∈ four.members := by decide

/-- A member of `four` at the start, and after hearing another's prevote. -/
def listener : ConsensusNode := seated "a" first_seat

def heardPrevote : ConsensusNode := (listener.handle_signed_envelope .plain (signs "b" 0 0 (.Prevote (some "x"))) 0).1

/-- A precommit in the name of one member, signed by another. -/
def forged : ConsensusSignedEnvelope := .sign .plain (signs "b" 0 0 (.Precommit (some "y"))).envelope "c"

theorem forged_unverified : forged.verifies .plain = false := by decide +kernel

theorem exclusion_by_own_name_only_four :
    Spares .plain (seat "b") listener (listener.handle_signed_envelope .plain forged 0).1 ∧
    (∀ h r, (heardPrevote.handle_signed_envelope .plain (signs "c" 0 0 (.Prevote (some "y"))) 0).1.is_excluded h r
      (seat "b") = false) := by
  have hstart : ∃ id key k config previous t, new_internal id key k config previous t = .ok listener :=
    ⟨_, _, _, _, _, _, new_seated (by decide)⟩
  have hone : Run (Calls .plain) listener [.deliver (signs "b" 0 0 (.Prevote (some "x"))) 0] heardPrevote :=
    .single (calls_deliver ..)
  have htwo : Run (Calls .plain) heardPrevote [.deliver (signs "c" 0 0 (.Prevote (some "y"))) 0]
      (heardPrevote.handle_signed_envelope .plain (signs "c" 0 0 (.Prevote (some "y"))) 0).1 :=
    .single (calls_deliver ..)
  refine ⟨((exclusion_by_own_name_only .plain).1 listener forged 0 forged_unverified).1,
    ((exclusion_by_own_name_only .plain).2 (seat "b") _ _ listener _ _ hstart hone htwo ⟨?_, ?_⟩).1⟩
  · intro e t he hs
    simp only [List.cons_append, List.nil_append, List.mem_cons, Input.deliver.injEq, List.not_mem_nil, or_false] at he
    rcases he with ⟨rfl, -⟩ | ⟨rfl, -⟩
    · decide +kernel
    · exact absurd hs (by decide)
  · intro e t e' t' he he' hs hkey
    simp only [List.cons_append, List.nil_append, List.mem_cons, Input.deliver.injEq, List.not_mem_nil, or_false] at he he'
    rcases he with ⟨rfl, -⟩ | ⟨rfl, -⟩
    · rcases he' with ⟨rfl, -⟩ | ⟨rfl, -⟩
      · rfl
      · exact absurd hkey (by decide)
    · exact absurd hs (by decide)

/-- An envelope its declared sender did not sign excludes that sender and drops the vote
it had recorded. -/
theorem forged_envelope_excludes : forged.verifies .plain = false ∧
    Run (Calls .plain) listener [.deliver (signs "b" 0 0 (.Prevote (some "x"))) 0] heardPrevote ∧
    (signs "b" 0 0 (.Prevote (some "x"))).verifies .plain = true ∧
    heardPrevote.choice .prevote 0 (seat "b") = some (some "x") ∧
    (heardPrevote.handle_signed_envelope .plain forged 0).1.choice .prevote 0 (seat "b") = none ∧
    heardPrevote.is_excluded 1 0 (seat "b") = false ∧
    (heardPrevote.handle_signed_envelope .plain forged 0).1.is_excluded 1 0 (seat "b") = true := by
  refine ⟨forged_unverified, .single (calls_deliver ..), ?_⟩
  decide +kernel

end Ambush.Consensus
