import Ambush.Runtime.HeldAction
/-!
# A hold is decided once

A decision never changes, and a terminal state is never left, as long as no claim is
completed on a hold that already is in one. The stall sweep is how that can happen: it
fails a hold under a claim whose holder may still complete it (`stalled_then_completed`).
-/
open Lib

namespace Ambush.Runtime

/-- A decision is written together with a terminal state. -/
def HeldAction.Sound (h : HeldAction) : Prop := h.decision.isSome → h.state.is_terminal = true

/-- What a later record keeps of an earlier one. -/
structure Keeps (h h' : HeldAction) : Prop where
  hold_id : h'.hold_id = h.hold_id
  sound : h.Sound → h'.Sound
  decision : ∀ d, h.decision = some d → h'.decision = some d
  state : h.state.is_terminal = true → h'.state = h.state

theorem Keeps.refl (h : HeldAction) : Keeps h h := ⟨rfl, id, fun _ hd => hd, fun _ => rfl⟩

theorem Keeps.trans {a b c : HeldAction} (h : Keeps a b) (k : Keeps b c) : Keeps a c where
  hold_id := k.hold_id.trans h.hold_id
  sound hs := k.sound (h.sound hs)
  decision d hd := k.decision d (h.decision d hd)
  state ht := (k.state (by rw [h.state ht]; exact ht)).trans (h.state ht)

/-! ## Transitions -/

/-- A transition that leaves the decision alone, on a hold that is open or being decided. -/
theorem keeps_of_live {h h' : HeldAction} (hid : h'.hold_id = h.hold_id) (hd : h'.decision = h.decision)
    (hlive : h.state.is_terminal = false) (hs : h.Sound) : Keeps h h' where
  hold_id := hid
  sound _ hsome := by
    rw [hd] at hsome
    rw [hs hsome] at hlive
    exact absurd hlive (by decide)
  decision d hdec := by rw [hd, hdec]
  state ht := by
    rw [ht] at hlive
    exact absurd hlive (by decide)

theorem begin_keeps {h h' : HeldAction} {intent : String} {now : Int} (hb : transitions.begin h intent now = some h')
    (hs : h.Sound) : Keeps h h' := by
  unfold transitions.begin at hb
  split at hb
  · exact absurd hb (by simp)
  · next hok =>
    have hlive : h.state.is_terminal = false := by
      unfold HeldAction.assert_decidable at hok
      by_contra ht
      simp only [Bool.not_eq_false] at ht
      split at hok
      · simp at hok
      · split at hok
        · simp at hok
        · simp at hok
    obtain rfl := Option.some.inj hb
    exact keeps_of_live rfl rfl hlive hs

theorem abandon_keeps (h : HeldAction) (intent : String) (hs : h.Sound) : Keeps h (transitions.abandon h intent).1 := by
  unfold transitions.abandon
  split
  · exact Keeps.refl h
  · next hcond =>
    have hdeciding : h.state = .Deciding := by
      by_contra hne
      exact hcond (.inl hne)
    exact keeps_of_live rfl rfl (by rw [hdeciding]; rfl) hs

theorem expire_keeps (h : HeldAction) (now : Int) (hs : h.Sound) : Keeps h (transitions.expire h now).1 := by
  unfold transitions.expire
  split
  · next hcond =>
    refine keeps_of_live rfl rfl ?_ hs
    cases hst : h.state <;> simp_all [HoldState.is_open, HoldState.is_terminal]
  · exact Keeps.refl h

theorem fail_stalled_keeps (h : HeldAction) (now : Int) (stall : Nat) (hs : h.Sound) :
    Keeps h (transitions.fail_stalled h now stall).1 := by
  unfold transitions.fail_stalled
  split
  · next hstalled =>
    have hdeciding : h.state = .Deciding := by
      simp only [transitions.is_stalled, Bool.and_eq_true, beq_iff_eq] at hstalled
      exact hstalled.1
    have hnone : h.decision = none := by
      cases hd : h.decision with
      | none => rfl
      | some d =>
        have := hs (by rw [hd]; rfl)
        rw [hdeciding] at this
        exact absurd this (by decide)
    refine ⟨rfl, fun _ _ => rfl, ?_, ?_⟩
    · intro d hd
      rw [hnone] at hd
      exact absurd hd (by simp)
    · intro ht
      rw [hdeciding] at ht
      exact absurd ht (by decide)
  · exact Keeps.refl h

/-- The step that checks nothing: it keeps what there was only on a live hold. -/
theorem complete_keeps {h : HeldAction} (d : HoldDecisionRecord) (r : Resolution) (hlive : h.state.is_terminal = false)
    (hs : h.Sound) : Keeps h (transitions.complete h d r.state) := by
  refine ⟨rfl, fun _ _ => by cases r <;> rfl, ?_, ?_⟩
  · intro d' hd'
    have := hs (by rw [hd']; rfl)
    rw [hlive] at this
    exact absurd this (by decide)
  · intro ht
    rw [hlive] at ht
    exact absurd ht (by decide)

/-! ## The store -/

/-- Every hold is still there, with what it keeps. -/
def HoldsKept (holds holds' : Holds) : Prop :=
  ∀ hold_id h, holds.get hold_id = some h → ∃ h', holds'.get hold_id = some h' ∧ Keeps h h'

def AllSound (holds : Holds) : Prop := ∀ h ∈ holds, h.Sound

theorem HoldsKept.refl (holds : Holds) : HoldsKept holds holds := fun _ h hg => ⟨h, hg, Keeps.refl h⟩

/-- Holds changed one by one, each keeping what it must. -/
theorem kept_of_forall₂ {holds holds' : Holds} (h : List.Forall₂ Keeps holds holds') :
    HoldsKept holds holds' ∧ (AllSound holds → AllSound holds') := by
  constructor
  · intro hold_id x hx
    rcases forall₂_lookupBy (fun _ _ hab => hab.hold_id) h hold_id with ⟨hnone, -⟩ | ⟨a, b, ha, hb, hab⟩
    · rw [Holds.get, hnone] at hx
      exact absurd hx (by simp)
    · rw [Holds.get, ha] at hx
      obtain rfl := Option.some.inj hx
      exact ⟨b, hb, hab⟩
  · intro hs
    induction h with
    | nil => exact hs
    | cons hab _ ih =>
      have hsound := List.forall_mem_cons.1 hs
      exact List.forall_mem_cons.2 ⟨hab.sound hsound.1, ih hsound.2⟩

theorem update_kept {holds : Holds} {hold_id : String} {apply : HeldAction → HeldAction}
    (h : ∀ x ∈ holds, x.hold_id = hold_id → Keeps x (apply x)) :
    HoldsKept holds (holds.update hold_id apply) ∧ (AllSound holds → AllSound (holds.update hold_id apply)) := by
  apply kept_of_forall₂
  unfold Holds.update updateBy
  induction holds with
  | nil => exact .nil
  | cons x holds ih =>
    refine .cons ?_ (ih (fun y hy => h y (List.mem_cons_of_mem _ hy)))
    show Keeps x (if x.hold_id = hold_id then apply x else x)
    split
    · next hid => exact h x List.mem_cons_self hid
    · exact Keeps.refl x

theorem mutate_kept {persists : HeldAction → Bool} {holds : Holds} {hold_id : String} {apply : HeldAction → HeldAction}
    (h : ∀ x ∈ holds, x.hold_id = hold_id → Keeps x (apply x)) :
    HoldsKept holds (mutate persists holds hold_id apply).1 ∧
      (AllSound holds → AllSound (mutate persists holds hold_id apply).1) := by
  unfold mutate
  split
  · exact ⟨HoldsKept.refl holds, id⟩
  · exact update_kept h

theorem begin_kept {persists : HeldAction → Bool} {holds : Holds} (hold_id intent : String) (now : Int)
    (hs : AllSound holds) : HoldsKept holds (begin_decision persists holds hold_id intent now).1 ∧
      (AllSound holds → AllSound (begin_decision persists holds hold_id intent now).1) := by
  unfold begin_decision
  split
  · exact ⟨HoldsKept.refl holds, id⟩
  · split
    · exact ⟨HoldsKept.refl holds, id⟩
    · refine update_kept (fun x hx _ => ?_)
      cases hb : transitions.begin x intent now with
      | none => exact Keeps.refl x
      | some y => exact begin_keeps hb (hs x hx)

theorem abandon_kept {persists : HeldAction → Bool} {holds : Holds} (hold_id intent : String) (hs : AllSound holds) :
    HoldsKept holds (abandon_decision persists holds hold_id intent).1 ∧
      (AllSound holds → AllSound (abandon_decision persists holds hold_id intent).1) := by
  unfold abandon_decision
  split
  · exact ⟨HoldsKept.refl holds, id⟩
  · exact update_kept (fun x hx _ => abandon_keeps x intent (hs x hx))

theorem sweep_kept {persists : HeldAction → Bool} {apply : HeldAction → HeldAction × Bool} {holds : Holds}
    (h : ∀ x ∈ holds, Keeps x (apply x).1) :
    HoldsKept holds (sweep persists apply holds).1 ∧ (AllSound holds → AllSound (sweep persists apply holds).1) := by
  apply kept_of_forall₂
  induction holds with
  | nil => exact .nil
  | cons x holds ih =>
    have hx := h x List.mem_cons_self
    have htail := ih (fun y hy => h y (List.mem_cons_of_mem _ hy))
    unfold sweep
    split
    · split
      · exact .cons hx htail
      · exact .cons hx (List.forall₂_same.2 (fun y _ => Keeps.refl y))
    · exact .cons (Keeps.refl x) htail

theorem create_kept (persists : HeldAction → Bool) (holds : Holds) (hold : HeldAction) (hs : hold.Sound) :
    HoldsKept holds (create persists holds hold).1 ∧ (AllSound holds → AllSound (create persists holds hold).1) := by
  unfold create
  split
  · exact ⟨HoldsKept.refl holds, id⟩
  · next hnew =>
    split
    · constructor
      · intro hold_id x hx
        refine ⟨x, ?_, Keeps.refl x⟩
        rw [Holds.get, Holds.insert, lookupBy_insertBy_ne]
        · exact hx
        · rintro rfl
          exact hnew (by rw [hx]; rfl)
      · intro hall x hx
        rcases mem_insertBy.1 hx with rfl | hx
        · exact hs
        · exact hall x hx
    · exact ⟨HoldsKept.refl holds, id⟩

/-! ## Calls -/

/-- A claim is completed while its hold is still open or being decided. -/
def Timely (desk : Desk) : Op → Prop
  | .complete claim _ _ => ∀ h ∈ desk.holds, h.hold_id = claim.hold_id → h.state.is_terminal = false
  | _ => True

def TimelyStep (desk : Desk) (call : Call) (desk' : Desk) : Prop := Step desk call desk' ∧ Timely desk call.2

theorem step_kept {desk desk' : Desk} {call : Call} (h : TimelyStep desk call desk') (hs : AllSound desk.holds) :
    HoldsKept desk.holds desk'.holds ∧ AllSound desk'.holds := by
  suffices hk : HoldsKept desk.holds desk'.holds ∧ (AllSound desk.holds → AllSound desk'.holds) from ⟨hk.1, hk.2 hs⟩
  obtain ⟨persists, op⟩ := call
  obtain ⟨hstep, htimely⟩ := h
  unfold Step step at hstep
  -- the marks leave the decision alone and no terminal state
  have hmark : ∀ {x y : HeldAction}, y.hold_id = x.hold_id → y.decision = x.decision →
      (x.state.is_terminal = true → y.state = x.state) → x ∈ desk.holds → Keeps x y := by
    intro x y hid hd hstate hx
    refine ⟨hid, fun hsx hsome => ?_, fun d hdec => by rw [hd, hdec], hstate⟩
    rw [hd] at hsome
    rw [hstate (hsx hsome)]
    exact hsx hsome
  cases op with
  | create hold_id held_at_ms expires_at_ms =>
    obtain rfl := Option.some.inj hstep
    exact create_kept persists desk.holds _ (fun hsome => absurd hsome (by simp [HeldAction.new]))
  | mark_case_channel hold_id case_channel =>
    obtain rfl := Option.some.inj hstep
    exact mutate_kept (fun x hx _ => hmark rfl rfl (fun _ => rfl) hx)
  | mark_notified hold_id at_ms notice_event_id card_event_id =>
    obtain rfl := Option.some.inj hstep
    refine mutate_kept (fun x hx _ => hmark rfl rfl (fun ht => if_neg ?_) hx)
    intro hc
    rw [hc] at ht
    exact absurd ht (by decide)
  | mark_armed hold_id =>
    obtain rfl := Option.some.inj hstep
    refine mutate_kept (fun x hx _ => hmark rfl rfl (fun ht => if_neg ?_) hx)
    intro hc
    rw [hc] at ht
    exact absurd ht (by decide)
  | begin hold_id intent_event_id cas_instant_ms =>
    have hbegin := @begin_kept persists desk.holds hold_id intent_event_id cas_instant_ms hs
    simp only at hstep
    split at hstep
    · next holds claimed heq =>
      obtain rfl := Option.some.inj hstep
      rw [heq] at hbegin
      exact hbegin
    · next holds e heq =>
      obtain rfl := Option.some.inj hstep
      rw [heq] at hbegin
      exact hbegin
  | abandon_decision hold_id intent_event_id =>
    obtain rfl := Option.some.inj hstep
    exact abandon_kept hold_id intent_event_id hs
  | drop claim =>
    simp only at hstep
    split at hstep
    · obtain rfl := Option.some.inj hstep
      exact abandon_kept claim.hold_id claim.intent_event_id hs
    · exact absurd hstep (by simp)
  | complete claim decision resolution =>
    simp only at hstep
    split at hstep
    · obtain rfl := Option.some.inj hstep
      exact mutate_kept (fun x hx hid => complete_keeps decision resolution (htimely x hx hid) (hs x hx))
    · exact absurd hstep (by simp)
  | expire_due now_ms =>
    obtain rfl := Option.some.inj hstep
    exact sweep_kept (fun x hx => expire_keeps x now_ms (hs x hx))
  | fail_stalled_decisions now_ms stall_ms =>
    obtain rfl := Option.some.inj hstep
    exact sweep_kept (fun x hx => fail_stalled_keeps x now_ms stall_ms (hs x hx))

theorem run_kept {desk desk' : Desk} {calls : List Call} (h : Run TimelyStep desk calls desk')
    (hs : AllSound desk.holds) : HoldsKept desk.holds desk'.holds ∧ AllSound desk'.holds := by
  induction h with
  | nil => exact ⟨HoldsKept.refl _, hs⟩
  | cons hstep _ ih =>
    obtain ⟨hkept, hsound⟩ := step_kept hstep hs
    obtain ⟨hkept', hsound'⟩ := ih hsound
    refine ⟨fun hold_id x hx => ?_, hsound'⟩
    obtain ⟨y, hy, hxy⟩ := hkept hold_id x hx
    obtain ⟨z, hz, hyz⟩ := hkept' hold_id y hy
    exact ⟨z, hz, hxy.trans hyz⟩

/-- In a run that completes no claim on a hold in a terminal state, whatever a hold's
record says at some point of its decision and of a terminal state, it says ever after. -/
theorem decided_once {desk desk' : Desk} {calls calls' : List Call} (h : Run TimelyStep {} calls desk)
    (h' : Run TimelyStep desk calls' desk') (hold_id : String) (x : HeldAction) (hx : desk.holds.get hold_id = some x) :
    ∃ y, desk'.holds.get hold_id = some y ∧ (∀ d, x.decision = some d → y.decision = some d) ∧
      (x.state.is_terminal = true → y.state = x.state) := by
  obtain ⟨-, hsound⟩ := run_kept h (fun x hx => absurd hx List.not_mem_nil)
  obtain ⟨y, hy, hkeeps⟩ := (run_kept h' hsound).1 hold_id x hx
  exact ⟨y, hy, hkeeps.decision, hkeeps.state⟩

/-- An operator's grant that ran. -/
def grantRecord : HoldDecisionRecord where
  decision := .Grant
  operator_id := "o"
  voter_id := "v"
  hold_notice_published := false
  governance_clearance := .NotRequired
  decided_at_ms := 1
  nostr_intent_event_id := "i"
  outcome := .GrantedExecuted
  dispatched := true

/-- The hold of the runs below, claimed. -/
def claimedHold : HeldAction :=
  { HeldAction.new "h" 0 100 with
    prior_state := some .Created
    state := .Deciding
    deciding_intent_event_id := some "i"
    cas_instant_ms := some 1 }

def claimedDesk : Desk := ⟨[claimedHold], [⟨"h", "i", claimedHold⟩]⟩

theorem claimedDesk_reached :
    Run TimelyStep {} [(fun _ => true, .create "h" 0 100), (fun _ => true, .begin "h" "i" 1)] claimedDesk :=
  .cons ⟨rfl, trivial⟩ (.cons ⟨by unfold Step; decide +kernel, trivial⟩ .nil)

/-- The same hold once its grant has run, and once the sweep has failed it. -/
def grantedHold : HeldAction := transitions.complete claimedHold grantRecord .Executed

def stalledHold : HeldAction := (transitions.fail_stalled claimedHold 61 60).1

theorem decided_once_granted : grantedHold.decision = some grantRecord ∧
    ∃ y, Holds.get [grantedHold] "h" = some y ∧ (∀ d, grantedHold.decision = some d → y.decision = some d) ∧
      (grantedHold.state.is_terminal = true → y.state = grantedHold.state) := by
  have hdone : Run TimelyStep claimedDesk [(fun _ => true, .complete ⟨"h", "i", claimedHold⟩ grantRecord .Executed)]
      ⟨[grantedHold], []⟩ :=
    .single ⟨by unfold Step; decide +kernel, by unfold Timely; decide +kernel⟩
  have hlater : Run TimelyStep ⟨[grantedHold], []⟩ [(fun _ => true, .expire_due 200)] ⟨[grantedHold], []⟩ :=
    .single ⟨by unfold Step; decide +kernel, trivial⟩
  exact ⟨rfl, decided_once (claimedDesk_reached.append hdone) hlater "h" grantedHold (by decide +kernel)⟩

/-- The sweep fails the hold under its claim, and the claim's holder then completes it:
the decision changes and the state goes from failed to executed. -/
theorem stalled_then_completed : ∃ desk desk' : Desk, ∃ x y : HeldAction,
    Run Step {} [(fun _ => true, .create "h" 0 100), (fun _ => true, .begin "h" "i" 1),
        (fun _ => true, .fail_stalled_decisions 61 60)] desk ∧
      Run Step desk [(fun _ => true, .complete ⟨"h", "i", claimedHold⟩ grantRecord .Executed)] desk' ∧
      desk.holds.get "h" = some x ∧ desk'.holds.get "h" = some y ∧ x.decision.isSome ∧ y.decision ≠ x.decision ∧
      x.state = .Failed ∧ y.state = .Executed := by
  have hclaimed : Run Step {} [(fun _ => true, .create "h" 0 100), (fun _ => true, .begin "h" "i" 1)] claimedDesk :=
    claimedDesk_reached.mono (fun _ _ _ h => h.1)
  have hswept : Run Step claimedDesk [(fun _ => true, .fail_stalled_decisions 61 60)]
      ⟨[stalledHold], [⟨"h", "i", claimedHold⟩]⟩ := .single (by unfold Step; decide +kernel)
  refine ⟨_, ⟨[transitions.complete stalledHold grantRecord .Executed], []⟩, stalledHold,
    transitions.complete stalledHold grantRecord .Executed, hclaimed.append hswept, .single ?_, ?_⟩
  · unfold Step
    decide +kernel
  · decide +kernel

end Ambush.Runtime
