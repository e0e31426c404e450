import Ambush.Policy.Gate
import Ambush.Lib.Ints
import Ambush.Lib.Maps
import Mathlib.Data.List.Induction
/-!
# The rate limiter

A window has the times of the actions that were allowed, oldest at the front. A call drops
what is stale from the front, and stops at the first time that is not. `allowed` is the same
history with nothing dropped, and `Exact` says the outcomes are those of a sliding window
over it.
-/
open Lib

namespace Ambush.Policy

/-! ## The core -/

def RATE_LIMIT_WINDOW_MS : Int := 60000

inductive RateLimitOutcome where
  | Allowed | Denied
  deriving DecidableEq

def prune_stale_window (window : List Int) (now_ms : Int) : List Int :=
  window.dropWhile (fun timestamp => timestamp ≤ satSubI now_ms RATE_LIMIT_WINDOW_MS)

def evaluate_rate_limit (window : List Int) (now_ms : Int) (limit : Nat) : RateLimitOutcome × List Int :=
  let window := prune_stale_window window now_ms
  if limit ≤ window.length then (.Denied, window) else (.Allowed, window ++ [now_ms])

/-! ## The gates -/

/-- The windows of a gate by scope or by rule and agent. -/
abbrev Windows := Map String (List Int)

/-- What both gates do under their lock. -/
def Windows.evaluate (windows : Windows) (key : String) (now_ms : Int) (limit : Nat) : RateLimitOutcome × Windows :=
  let (outcome, updated) := evaluate_rate_limit ((windows key).getD []) now_ms limit
  (outcome, windows.insert key updated)

def scope_bucket (request : ActionRequest) : String :=
  (scope_for_response_action request.action).getD ("unscoped:" ++ request.action.kind)

structure PolicyDecision where
  rule : String
  reason : String
  deriving DecidableEq

/-- The denial of `StaticApprovalGate`, if there is one. -/
def scope_rate_limit_decision (max_actions_per_scope_per_minute : Nat) (windows : Windows) (request : ActionRequest) (now_ms : Int) :
    Option PolicyDecision × Windows :=
  let scope := scope_bucket request
  match windows.evaluate scope now_ms max_actions_per_scope_per_minute with
  | (.Denied, windows) =>
    (some ⟨"static.scope_rate_limit",
      "scope `" ++ scope ++ "` exceeded " ++ toString max_actions_per_scope_per_minute ++ " actions per minute"⟩, windows)
  | (.Allowed, windows) => (none, windows)

def agent_window_key (rule_name : String) (request : ActionRequest) : String := rule_name ++ ":" ++ request.requested_by

/-- The check of `ConfigurableApprovalGate`. -/
def agent_limit_exceeded (windows : Windows) (rule_name : String) (request : ActionRequest) (now_ms : Int) (limit : Nat) :
    Bool × Windows :=
  let (outcome, windows) := windows.evaluate (agent_window_key rule_name request) now_ms limit
  (outcome = .Denied, windows)

/-! ## Runs of one window -/

/-- The window after calls at these times. -/
def window_after (limit : Nat) (window : List Int) (times : List Int) : List Int :=
  times.foldl (fun window now_ms => (evaluate_rate_limit window now_ms limit).2) window

/-- The outcomes of the calls. -/
def outcomes (limit : Nat) : List Int → List Int → List RateLimitOutcome
  | _, [] => []
  | window, now_ms :: rest =>
    (evaluate_rate_limit window now_ms limit).1 :: outcomes limit (evaluate_rate_limit window now_ms limit).2 rest

/-- The outcome of a call after others, from the empty window. -/
def outcome_after (limit : Nat) (times : List Int) (now_ms : Int) : RateLimitOutcome :=
  (evaluate_rate_limit (window_after limit [] times) now_ms limit).1

/-- The times of the calls that were allowed. -/
def allowed_from (limit : Nat) : List Int → List Int → List Int
  | _, [] => []
  | window, now_ms :: rest =>
    (if (evaluate_rate_limit window now_ms limit).1 = .Allowed then [now_ms] else []) ++
      allowed_from limit (evaluate_rate_limit window now_ms limit).2 rest

def allowed (limit : Nat) (times : List Int) : List Int := allowed_from limit [] times

/-- The time is in `(now_ms - 60000, now_ms]`. -/
def inside (now_ms timestamp : Int) : Bool := now_ms - RATE_LIMIT_WINDOW_MS < timestamp && timestamp ≤ now_ms

section
variable {limit : Nat} {window times : List Int} {now_ms : Int}

theorem window_after_append (limit : Nat) (window as bs : List Int) :
    window_after limit window (as ++ bs) = window_after limit (window_after limit window as) bs := List.foldl_append

theorem allowed_from_append (limit : Nat) (window as bs : List Int) :
    allowed_from limit window (as ++ bs) = allowed_from limit window as ++ allowed_from limit (window_after limit window as) bs := by
  induction as generalizing window with
  | nil => rfl
  | cons now_ms as ih => simp only [List.cons_append, allowed_from, ih, List.append_assoc, window_after, List.foldl_cons]

theorem allowed_snoc (limit : Nat) (times : List Int) (now_ms : Int) :
    allowed limit (times ++ [now_ms]) =
      allowed limit times ++ (if outcome_after limit times now_ms = .Allowed then [now_ms] else []) := by
  rw [allowed, allowed_from_append]
  exact congrArg _ (List.append_nil _)

/-- A call keeps what is not dropped, and its own time if it is allowed. -/
theorem evaluate_window (window : List Int) (now_ms : Int) (limit : Nat) :
    (evaluate_rate_limit window now_ms limit).2 =
      prune_stale_window window now_ms ++ (if (evaluate_rate_limit window now_ms limit).1 = .Allowed then [now_ms] else []) := by
  by_cases h : limit ≤ (prune_stale_window window now_ms).length
  · simp [evaluate_rate_limit, h]
  · simp [evaluate_rate_limit, h]

theorem window_snoc (limit : Nat) (times : List Int) (now_ms : Int) :
    window_after limit [] (times ++ [now_ms]) =
      prune_stale_window (window_after limit [] times) now_ms ++ (if outcome_after limit times now_ms = .Allowed then [now_ms] else []) := by
  rw [window_after_append]
  exact evaluate_window _ _ _

/-- Whatever is asked for in other scopes, a request is decided by the window of the requests of its own. -/
theorem scopes_are_limited_apart (limit : Nat) (calls : List (ActionRequest × Int)) (request : ActionRequest) (now_ms : Int) :
    (scope_rate_limit_decision limit
      (calls.foldl (fun windows call => (scope_rate_limit_decision limit windows call.1 call.2).2) .empty) request now_ms).1 = none ↔
      outcome_after limit ((calls.filter (fun call => scope_bucket call.1 = scope_bucket request)).map Prod.snd) now_ms = .Allowed := by
  have hcall : ∀ (windows : Windows) (request : ActionRequest) (now_ms : Int),
      ((scope_rate_limit_decision limit windows request now_ms).1 = none ↔
        (evaluate_rate_limit ((windows (scope_bucket request)).getD []) now_ms limit).1 = .Allowed) ∧
      (scope_rate_limit_decision limit windows request now_ms).2 =
        windows.insert (scope_bucket request) (evaluate_rate_limit ((windows (scope_bucket request)).getD []) now_ms limit).2 := by
    intro windows request now_ms
    cases h : evaluate_rate_limit ((windows (scope_bucket request)).getD []) now_ms limit with
    | mk outcome updated =>
      simp only [scope_rate_limit_decision, Windows.evaluate, h]
      cases outcome with
      | Allowed => simp
      | Denied => simp
  rw [(hcall ..).1, outcome_after]
  suffices hwindow : ∀ windows : Windows,
      ((calls.foldl (fun windows call => (scope_rate_limit_decision limit windows call.1 call.2).2) windows)
        (scope_bucket request)).getD [] = window_after limit ((windows (scope_bucket request)).getD [])
          ((calls.filter (fun call => scope_bucket call.1 = scope_bucket request)).map Prod.snd) by
    rw [hwindow]
    rfl
  induction calls with
  | nil => exact fun windows => rfl
  | cons call calls ih =>
    intro windows
    rw [List.foldl_cons, ih, (hcall ..).2]
    by_cases hscope : scope_bucket call.1 = scope_bucket request
    · rw [List.filter_cons_of_pos (by simpa using hscope), hscope, Map.insert_self]
      rfl
    · rw [List.filter_cons_of_neg (by simpa using hscope), Map.insert_ne _ _ _ _ (Ne.symm hscope)]

theorem outcome_iff : (evaluate_rate_limit window now_ms limit).1 = .Allowed ↔ (prune_stale_window window now_ms).length < limit := by
  simp only [evaluate_rate_limit]
  split
  case isTrue h => exact ⟨fun h' => (nomatch h'), fun h' => absurd h (Nat.not_le.2 h')⟩
  case isFalse h => exact ⟨fun _ => Nat.not_le.1 h, fun _ => rfl⟩

theorem allowed_sublist (limit : Nat) (window times : List Int) : (allowed_from limit window times).Sublist times := by
  induction times generalizing window with
  | nil => exact .slnil
  | cons now_ms times ih =>
    rw [allowed_from]
    split
    · exact (ih _).cons_cons now_ms
    · exact (ih _).cons now_ms

/-! ## Calls in the order of their times -/

/-- On a list in order, dropping from the front is the filter. -/
theorem dropWhile_le_eq_filter {l : List Int} (bound : Int) (h : l.Pairwise (· ≤ ·)) :
    l.dropWhile (fun t => t ≤ bound) = l.filter (fun t => bound < t) := by
  induction l with
  | nil => rfl
  | cons t l ih =>
    rw [List.pairwise_cons] at h
    by_cases ht : t ≤ bound
    · rw [List.dropWhile_cons_of_pos (by simpa using ht), List.filter_cons_of_neg (by simpa using ht)]
      exact ih h.2
    · have hall : ∀ q ∈ t :: l, decide (bound < q) = true := by
        intro q hq
        rcases List.mem_cons.1 hq with rfl | hq
        · simpa using ht
        · have := h.1 q hq
          simp only [decide_eq_true_eq]
          omega
      rw [List.dropWhile_cons_of_neg (by simpa using ht), List.filter_eq_self.2 hall]

theorem satSubI_mono {a b : Int} (h : a ≤ b) : satSubI a RATE_LIMIT_WINDOW_MS ≤ satSubI b RATE_LIMIT_WINDOW_MS := by
  unfold satSubI
  omega

/-- With calls in order, what a call sees of the window is what it would keep of the whole history. -/
theorem prune_eq_filter (hsorted : times.Pairwise (· ≤ ·)) (hlast : ∀ t ∈ times, t ≤ now_ms) :
    prune_stale_window (window_after limit [] times) now_ms =
      (allowed limit times).filter (fun t => satSubI now_ms RATE_LIMIT_WINDOW_MS < t) := by
  induction times using List.reverseRecOn generalizing now_ms with
  | nil => rfl
  | append_singleton times last ih =>
    have hpast := List.pairwise_append.1 hsorted
    have hbefore : ∀ t ∈ times, t ≤ last := fun t ht => hpast.2.2 t ht last (List.mem_singleton.2 rfl)
    have hle : last ≤ now_ms := hlast last (by simp)
    have hkept := @ih last hpast.1 hbefore
    rw [window_snoc, allowed_snoc, hkept]
    have hsub : (allowed limit times).Sublist times := allowed_sublist limit [] times
    have hwindow : ((allowed limit times).filter (fun t => satSubI last RATE_LIMIT_WINDOW_MS < t) ++
        (if outcome_after limit times last = .Allowed then [last] else [])).Pairwise (· ≤ ·) := by
      refine List.pairwise_append.2 ⟨(hpast.1.sublist hsub).filter _, ?_, ?_⟩
      · split <;> simp
      · intro t ht q hq
        have hq : q = last := by
          split at hq
          · exact List.mem_singleton.1 hq
          · cases hq
        exact hq ▸ hbefore t (hsub.subset (List.mem_filter.1 ht).1)
    rw [prune_stale_window, dropWhile_le_eq_filter _ hwindow, List.filter_append, List.filter_append, List.filter_filter]
    congr 1
    refine List.filter_congr fun t _ => ?_
    have := satSubI_mono hle
    simp only [Bool.and_eq_left_iff_imp, decide_eq_true_eq]
    omega

/-- A call is allowed exactly when fewer than `limit` allowed calls before it are inside its window. -/
def Exact (limit : Nat) (times : List Int) : Prop :=
  ∀ past now_ms rest, times = past ++ now_ms :: rest →
    (outcome_after limit past now_ms = .Allowed ↔ (allowed limit past).countP (inside now_ms) < limit)

/-- No half-open minute has more than `limit` allowed calls. -/
def Bounded (limit : Nat) (times : List Int) : Prop :=
  ∀ start, (allowed limit times).countP (fun t => start < t && t ≤ start + RATE_LIMIT_WINDOW_MS) ≤ limit

/-- A denied call changes no later outcome. -/
def DenialsFree (limit : Nat) (times : List Int) : Prop :=
  ∀ past now_ms rest, times = past ++ now_ms :: rest → outcome_after limit past now_ms = .Denied →
    outcomes limit (window_after limit [] (past ++ [now_ms])) rest = outcomes limit (window_after limit [] past) rest

theorem Exact.init {last : Int} (h : Exact limit (times ++ [last])) : Exact limit times := by
  rintro past now_ms rest rfl
  exact h past now_ms (rest ++ [last]) (by simp)

theorem Exact.bounded (hsorted : times.Pairwise (· ≤ ·)) (h : Exact limit times) : Bounded limit times := by
  intro start
  induction times using List.reverseRecOn with
  | nil => exact Nat.zero_le limit
  | append_singleton times last ih =>
    have hpast := List.pairwise_append.1 hsorted
    have hfew := ih hpast.1 h.init
    rw [allowed_snoc, List.countP_append]
    by_cases hinside : outcome_after limit times last = .Allowed ∧ start < last ∧ last ≤ start + RATE_LIMIT_WINDOW_MS
    · -- the calls of the minute before this one are inside its window
      have hsub : ∀ t ∈ allowed limit times, (start < t && t ≤ start + RATE_LIMIT_WINDOW_MS) = true → inside last t = true := by
        intro t ht hin
        have hle : t ≤ last := hpast.2.2 t ((allowed_sublist limit [] times).subset ht) last (by simp)
        simp only [inside, Bool.and_eq_true, decide_eq_true_eq] at hin ⊢
        simp only [RATE_LIMIT_WINDOW_MS] at hin hinside ⊢
        omega
      have hless := (h times last [] rfl).1 hinside.1
      have hcount := List.countP_mono_left hsub
      have hone : ((if outcome_after limit times last = .Allowed then [last] else []).countP
          (fun t => start < t && t ≤ start + RATE_LIMIT_WINDOW_MS)) ≤ 1 := by
        split
        · exact List.countP_le_length
        · exact Nat.zero_le 1
      omega
    · have hzero : ((if outcome_after limit times last = .Allowed then [last] else []).countP
          (fun t => start < t && t ≤ start + RATE_LIMIT_WINDOW_MS)) = 0 := by
        rw [List.countP_eq_zero]
        intro t ht
        split at ht
        · obtain rfl := List.mem_singleton.1 ht
          simp only [Bool.and_eq_true, decide_eq_true_eq]
          tauto
        · cases ht
      omega

/-- Dropping twice, the second time no less, is dropping once. -/
theorem prune_prune {window : List Int} {before now_ms : Int} (h : before ≤ now_ms) :
    prune_stale_window (prune_stale_window window before) now_ms = prune_stale_window window now_ms := by
  have hmono := satSubI_mono h
  induction window with
  | nil => rfl
  | cons t window ih =>
    by_cases ht : t ≤ satSubI before RATE_LIMIT_WINDOW_MS
    · have hlater : t ≤ satSubI now_ms RATE_LIMIT_WINDOW_MS := Int.le_trans ht hmono
      simpa [prune_stale_window, ht, hlater] using ih
    · simp [prune_stale_window, ht]

theorem outcomes_prune {window rest : List Int} {before : Int} (h : ∀ t ∈ rest, before ≤ t) :
    outcomes limit (prune_stale_window window before) rest = outcomes limit window rest := by
  cases rest with
  | nil => rfl
  | cons now_ms rest =>
    have hprune : prune_stale_window (prune_stale_window window before) now_ms = prune_stale_window window now_ms :=
      prune_prune (h now_ms (by simp))
    have hevaluate : evaluate_rate_limit (prune_stale_window window before) now_ms limit = evaluate_rate_limit window now_ms limit := by
      simp only [evaluate_rate_limit, hprune]
    rw [outcomes, outcomes, hevaluate]

theorem denialsFree (hsorted : times.Pairwise (· ≤ ·)) : DenialsFree limit times := by
  rintro past now_ms rest rfl hdenied
  have hlater : ∀ t ∈ rest, now_ms ≤ t := (List.pairwise_cons.1 (List.pairwise_append.1 hsorted).2.1).1
  rw [window_snoc, hdenied]
  simp only [reduceCtorEq, ↓reduceIte, List.append_nil]
  exact outcomes_prune hlater

/-! ### The lowest time -/

/-- Before one minute has passed since the lowest time, that time itself is dropped. -/
theorem satSubI_early {now_ms : Int} (h : now_ms < i64Min + RATE_LIMIT_WINDOW_MS) :
    satSubI now_ms RATE_LIMIT_WINDOW_MS = i64Min := by
  simp only [satSubI, i64Min, i64Max, RATE_LIMIT_WINDOW_MS] at *
  omega

theorem satSubI_late {now_ms : Int} (h : i64Min + RATE_LIMIT_WINDOW_MS ≤ now_ms) (hmax : now_ms ≤ i64Max) :
    satSubI now_ms RATE_LIMIT_WINDOW_MS = now_ms - RATE_LIMIT_WINDOW_MS := by
  simp only [satSubI, i64Min, i64Max, RATE_LIMIT_WINDOW_MS] at *
  omega

/-- What a call counts, and what is inside its window. -/
theorem outcome_after_iff (hsorted : times.Pairwise (· ≤ ·)) (hlast : ∀ t ∈ times, t ≤ now_ms) :
    outcome_after limit times now_ms = .Allowed ↔
      (allowed limit times).countP (fun t => satSubI now_ms RATE_LIMIT_WINDOW_MS < t) < limit := by
  rw [outcome_after, outcome_iff, prune_eq_filter hsorted hlast, List.countP_eq_length_filter]

theorem countP_inside (hlast : ∀ t ∈ times, t ≤ now_ms)
    (hsame : ∀ t ∈ times, satSubI now_ms RATE_LIMIT_WINDOW_MS < t ↔ now_ms - RATE_LIMIT_WINDOW_MS < t) :
    (allowed limit times).countP (fun t => satSubI now_ms RATE_LIMIT_WINDOW_MS < t) = (allowed limit times).countP (inside now_ms) := by
  refine List.countP_congr fun t ht => ?_
  have hmem := (allowed_sublist limit [] times).subset ht
  simp only [inside, Bool.and_eq_true, decide_eq_true_eq, hsame t hmem, hlast t hmem, and_true]

/-- A call with fewer than `limit` calls before it is allowed. -/
theorem allowed_of_few (hsorted : times.Pairwise (· ≤ ·)) (hlast : ∀ t ∈ times, t ≤ now_ms) (hfew : times.length < limit) :
    outcome_after limit times now_ms = .Allowed := by
  rw [outcome_after_iff hsorted hlast]
  have hcount := List.countP_le_length (p := fun t => decide (satSubI now_ms RATE_LIMIT_WINDOW_MS < t)) (l := allowed limit times)
  have hlength := (allowed_sublist limit [] times).length_le
  exact Nat.lt_of_le_of_lt (Nat.le_trans hcount hlength) hfew

/-- While there have been at most `limit` calls, all of them were allowed. -/
theorem allowed_all (hsorted : times.Pairwise (· ≤ ·)) (hfew : times.length ≤ limit) : allowed limit times = times := by
  induction times using List.reverseRecOn with
  | nil => rfl
  | append_singleton times last ih =>
    have hpast := List.pairwise_append.1 hsorted
    have hlength : times.length < limit := Nat.lt_of_succ_le (by simpa using hfew)
    have hallowed := allowed_of_few hpast.1 (fun t ht => hpast.2.2 t ht last (by simp)) hlength
    rw [allowed_snoc, ih hpast.1 hlength.le, hallowed]
    rfl

/-- When the outcomes are exact: nothing is ever allowed, or the lowest time of the type does not occur, or the first minute from
it has no more calls than the limit. -/
def Within (limit : Nat) (times : List Int) : Prop :=
  limit = 0 ∨ i64Min ∉ times ∨ times.countP (· < i64Min + RATE_LIMIT_WINDOW_MS) ≤ limit

theorem exact_of_within (hsorted : times.Pairwise (· ≤ ·)) (hrange : ∀ t ∈ times, i64Min ≤ t ∧ t ≤ i64Max)
    (hwithin : Within limit times) : Exact limit times := by
  rintro past now_ms rest rfl
  have hpast := List.pairwise_append.1 hsorted
  have hlast : ∀ t ∈ past, t ≤ now_ms := fun t ht => hpast.2.2 t ht now_ms (by simp)
  have hnow := hrange now_ms (by simp)
  rw [outcome_after_iff hpast.1 hlast]
  by_cases hlate : i64Min + RATE_LIMIT_WINDOW_MS ≤ now_ms
  · rw [countP_inside hlast (fun t _ => by rw [satSubI_late hlate hnow.2])]
  · have hearly : now_ms < i64Min + RATE_LIMIT_WINDOW_MS := Int.not_le.1 hlate
    rcases hwithin with rfl | hnone | hfew
    · simp
    · -- every earlier time is above the lowest, so the clamp drops none of them
      rw [countP_inside hlast]
      intro t ht
      have hne : t ≠ i64Min := fun h => hnone (h ▸ by simp [ht])
      have hmin := (hrange t (by simp [ht])).1
      rw [satSubI_early hearly]
      omega
    · have hall : past.countP (fun t => decide (t < i64Min + RATE_LIMIT_WINDOW_MS)) = past.length := by
        rw [List.countP_eq_length]
        intro t ht
        have := hlast t ht
        simp only [decide_eq_true_eq]
        omega
      rw [List.countP_append, List.countP_cons_of_pos (by simpa using hearly), hall] at hfew
      have hlength := (allowed_sublist limit [] past).length_le
      have hleft := List.countP_le_length (p := fun t => decide (satSubI now_ms RATE_LIMIT_WINDOW_MS < t)) (l := allowed limit past)
      have hright := List.countP_le_length (p := inside now_ms) (l := allowed limit past)
      constructor <;> intro _
      · exact Nat.lt_of_le_of_lt (Nat.le_trans hright hlength) (by omega)
      · exact Nat.lt_of_le_of_lt (Nat.le_trans hleft hlength) (by omega)

/-- In order, the lowest time comes first. -/
theorem lowest_first {first : Int} {rest : List Int} (hsorted : (first :: rest).Pairwise (· ≤ ·)) (hmin : i64Min ≤ first)
    (hmem : i64Min ∈ first :: rest) : first = i64Min := by
  rcases List.mem_cons.1 hmem with h | h
  · exact h.symm
  · exact Int.le_antisymm ((List.pairwise_cons.1 hsorted).1 _ h) hmin

/-- The call after the first `limit` ones, when it is still in the first minute. -/
theorem early_split (hsorted : times.Pairwise (· ≤ ·)) (hmany : limit < times.countP (· < i64Min + RATE_LIMIT_WINDOW_MS)) :
    ∃ past now_ms rest, times = past ++ now_ms :: rest ∧ past.length = limit ∧ now_ms < i64Min + RATE_LIMIT_WINDOW_MS := by
  have hlength : limit < times.length := Nat.lt_of_lt_of_le hmany List.countP_le_length
  rcases hdrop : times.drop limit with _ | ⟨now_ms, rest⟩
  · rw [List.drop_eq_nil_iff] at hdrop
    omega
  · have hsplit : times = times.take limit ++ now_ms :: rest := by rw [← hdrop, List.take_append_drop]
    have htake : (times.take limit).length = limit := List.length_take_of_le hlength.le
    refine ⟨times.take limit, now_ms, rest, hsplit, htake, ?_⟩
    by_contra hlate
    -- then every call from this one on is late, and the early ones are among the first `limit`
    have hrest : ∀ t ∈ now_ms :: rest, ¬ decide (t < i64Min + RATE_LIMIT_WINDOW_MS) = true := by
      intro t ht
      rw [hsplit] at hsorted
      have hfrom := List.pairwise_cons.1 (List.pairwise_append.1 hsorted).2.1
      rcases List.mem_cons.1 ht with rfl | ht
      · simpa using hlate
      · have := hfrom.1 t ht
        simp only [decide_eq_true_eq]
        omega
    rw [hsplit, List.countP_append, List.countP_eq_zero.2 hrest] at hmany
    have := List.countP_le_length (p := fun t => decide (t < i64Min + RATE_LIMIT_WINDOW_MS)) (l := times.take limit)
    omega

theorem within_of_exact (hsorted : times.Pairwise (· ≤ ·)) (hrange : ∀ t ∈ times, i64Min ≤ t ∧ t ≤ i64Max) (hexact : Exact limit times) :
    Within limit times := by
  by_contra hnot
  simp only [Within, not_or, not_not, Nat.not_le] at hnot
  obtain ⟨hlimit, hmin, hmany⟩ := hnot
  obtain ⟨past, now_ms, rest, rfl, hlength, hearly⟩ := early_split hsorted hmany
  have hpast := List.pairwise_append.1 hsorted
  have hlast : ∀ t ∈ past, t ≤ now_ms := fun t ht => hpast.2.2 t ht now_ms (by simp)
  have hall : allowed limit past = past := allowed_all hpast.1 hlength.le
  have hcall := hexact past now_ms rest rfl
  rw [outcome_after_iff hpast.1 hlast, hall, satSubI_early hearly] at hcall
  have hinside : past.countP (inside now_ms) = limit := by
    rw [← hlength, List.countP_eq_length]
    intro t ht
    have hlow := (hrange t (by simp [ht])).1
    have hhigh := hlast t ht
    simp only [inside, Bool.and_eq_true, decide_eq_true_eq]
    omega
  rw [hinside] at hcall
  refine absurd (hcall.1 ?_) (Nat.lt_irrefl limit)
  -- the first of them is at the lowest time, which the call does not count
  rcases past with _ | ⟨first, past⟩
  · exact absurd hlength.symm hlimit
  · have hfirst := lowest_first hsorted (hrange first (by simp)).1 hmin
    rw [List.countP_cons_of_neg (by simp [hfirst])]
    have := List.countP_le_length (p := fun t => decide (i64Min < t)) (l := past)
    rw [List.length_cons] at hlength
    omega

/-- With calls in the order of their times, the limiter is a sliding window exactly when `Within` holds. -/
theorem sliding_window_iff (limit : Nat) (times : List Int) (hsorted : times.Pairwise (· ≤ ·))
    (hrange : ∀ t ∈ times, i64Min ≤ t ∧ t ≤ i64Max) :
    (Exact limit times ∧ Bounded limit times ∧ DenialsFree limit times) ↔
      limit = 0 ∨ i64Min ∉ times ∨ times.countP (· < i64Min + RATE_LIMIT_WINDOW_MS) ≤ limit := by
  constructor
  · rintro ⟨hexact, -, -⟩
    exact within_of_exact hsorted hrange hexact
  · intro hwithin
    have hexact := exact_of_within hsorted hrange hwithin
    exact ⟨hexact, hexact.bounded hsorted, denialsFree hsorted⟩

/-- Two calls a minute apart and two together, with a limit of two. -/
theorem sliding_window_iff_minute : (Exact 2 [0, 0, 30000, 60000] ∧ Bounded 2 [0, 0, 30000, 60000] ∧ DenialsFree 2 [0, 0, 30000, 60000]) :=
  (sliding_window_iff 2 [0, 0, 30000, 60000] (by decide) (by decide)).2 (.inr (.inl (by decide)))

/-- Two calls at the lowest time with a limit of one: the second drops the first, and both are allowed. -/
theorem lowest_time_exceeds : ¬ (Exact 1 [i64Min, i64Min] ∧ Bounded 1 [i64Min, i64Min] ∧ DenialsFree 1 [i64Min, i64Min]) := by
  rintro ⟨hexact, -, -⟩
  exact absurd ((hexact [i64Min] i64Min [] rfl).1 (by decide)) (by decide)

/-! ## Calls in any order -/

/-- After a call every time in the window is fresh, and a denial has a full budget of fresh times. -/
def NoStale (limit : Nat) (past : List Int) (now_ms : Int) : Prop :=
  let window := window_after limit [] (past ++ [now_ms])
  (∀ t ∈ window, now_ms - RATE_LIMIT_WINDOW_MS < t) ∧
    (outcome_after limit past now_ms = .Denied → limit ≤ window.countP (fun t => now_ms - RATE_LIMIT_WINDOW_MS < t))

/-- No stale time stands behind a fresh one. -/
def StaleInFront (window : List Int) (now_ms : Int) : Prop :=
  ∀ front t back, window = front ++ t :: back → t ≤ now_ms - RATE_LIMIT_WINDOW_MS → ∀ q ∈ front, q ≤ now_ms - RATE_LIMIT_WINDOW_MS

theorem window_sublist (limit : Nat) (times : List Int) : (window_after limit [] times).Sublist times := by
  induction times using List.reverseRecOn with
  | nil => exact .slnil
  | append_singleton times last ih =>
    rw [window_snoc]
    refine List.Sublist.append ((List.dropWhile_sublist _).trans ih) ?_
    split
    · exact .refl _
    · exact List.nil_sublist _

/-- Times in order have the stale ones in front. -/
theorem staleInFront_of_sorted {window : List Int} (h : window.Pairwise (· ≤ ·)) : StaleInFront window now_ms := by
  rintro front t back rfl ht q hq
  exact Int.le_trans ((List.pairwise_append.1 h).2.2 q hq t (by simp)) ht

/-- Dropping from the front leaves only what is above a bound exactly when all that is not stands in front. -/
theorem dropWhile_fresh_iff {window : List Int} (bound : Int) :
    (∀ t ∈ window.dropWhile (fun t => t ≤ bound), bound < t) ↔
      ∀ front t back, window = front ++ t :: back → t ≤ bound → ∀ q ∈ front, q ≤ bound := by
  induction window with
  | nil => simp
  | cons first window ih =>
    by_cases hfirst : first ≤ bound
    · rw [List.dropWhile_cons_of_pos (by simpa using hfirst), ih]
      constructor
      · intro h front t back heq ht q hq
        rcases front with _ | ⟨f, front⟩
        · cases hq
        · obtain ⟨hhead, htail⟩ := List.cons.inj heq
          rcases List.mem_cons.1 hq with rfl | hq
          · exact hhead ▸ hfirst
          · exact h front t back htail ht q hq
      · intro h front t back heq ht q hq
        exact h (first :: front) t back (by rw [heq]; rfl) ht q (List.mem_cons_of_mem _ hq)
    · rw [List.dropWhile_cons_of_neg (by simpa using hfirst)]
      constructor
      · intro h front t back heq ht
        exact absurd (h t (heq ▸ by simp)) (Int.not_lt.2 ht)
      · intro h t ht
        rcases List.mem_cons.1 ht with rfl | ht
        · exact Int.not_le.1 hfirst
        · obtain ⟨front, back, rfl⟩ := List.append_of_mem ht
          by_contra hstale
          exact hfirst (h (first :: front) t back rfl (Int.not_lt.1 hstale) first (by simp))

/-- For times of the type, the clamped bound drops what the bound itself would. -/
theorem prune_eq (hnow : now_ms ≤ i64Max) (hrange : ∀ t ∈ window, i64Min ≤ t) (hstale : ∃ t ∈ window, t ≤ now_ms - RATE_LIMIT_WINDOW_MS) :
    prune_stale_window window now_ms = window.dropWhile (fun t => t ≤ now_ms - RATE_LIMIT_WINDOW_MS) := by
  obtain ⟨t, ht, hle⟩ := hstale
  have hmin := hrange t ht
  rw [prune_stale_window, satSubI_late (by omega) hnow]

theorem fresh_after_prune (hnow : now_ms ≤ i64Max) (hrange : ∀ t ∈ window, i64Min ≤ t) :
    (∀ t ∈ prune_stale_window window now_ms, now_ms - RATE_LIMIT_WINDOW_MS < t) ↔ StaleInFront window now_ms := by
  by_cases hstale : ∃ t ∈ window, t ≤ now_ms - RATE_LIMIT_WINDOW_MS
  · rw [prune_eq hnow hrange hstale, dropWhile_fresh_iff]
    rfl
  · have hfresh : ∀ t ∈ window, now_ms - RATE_LIMIT_WINDOW_MS < t := fun t ht => Int.not_le.1 fun h => hstale ⟨t, ht, h⟩
    constructor
    · intro _ front t back heq ht
      exact absurd ht (Int.not_le.2 (hfresh t (heq ▸ by simp)))
    · intro _ t ht
      exact hfresh t ((List.dropWhile_sublist _).subset ht)

theorem noStale_iff {past : List Int} (hnow : now_ms ≤ i64Max) (hrange : ∀ t ∈ past, i64Min ≤ t) :
    NoStale limit past now_ms ↔ StaleInFront (window_after limit [] past) now_ms := by
  have hwindow : ∀ t ∈ window_after limit [] past, i64Min ≤ t := fun t ht => hrange t ((window_sublist limit past).subset ht)
  rw [← fresh_after_prune hnow hwindow]
  have hself : now_ms - RATE_LIMIT_WINDOW_MS < now_ms := by
    simp only [RATE_LIMIT_WINDOW_MS]
    omega
  simp only [NoStale, window_snoc]
  constructor
  · intro h t ht
    exact h.1 t (List.mem_append_left _ ht)
  · intro h
    constructor
    · intro t ht
      rcases List.mem_append.1 ht with ht | ht
      · exact h t ht
      · split at ht
        · obtain rfl := List.mem_singleton.1 ht
          exact hself
        · cases ht
    · intro hdenied
      have hfull : limit ≤ (prune_stale_window (window_after limit [] past) now_ms).length := by
        by_contra hless
        rw [outcome_after, outcome_iff.2 (Nat.not_le.1 hless)] at hdenied
        cases hdenied
      rw [hdenied, if_neg (by decide), List.append_nil, List.countP_eq_length.2 (fun t ht => decide_eq_true (h t ht))]
      exact hfull

/-- In every run of one window, at any times: no stale time is kept and a denial has a full budget of fresh times, exactly when
before each call no stale time stands behind a fresh one. -/
theorem no_stale_entry_counts_iff (limit : Nat) (times : List Int) (hrange : ∀ t ∈ times, i64Min ≤ t ∧ t ≤ i64Max) :
    (∀ past now_ms rest, times = past ++ now_ms :: rest → NoStale limit past now_ms) ↔
      ∀ past now_ms rest, times = past ++ now_ms :: rest → StaleInFront (window_after limit [] past) now_ms := by
  have hstep : ∀ past now_ms rest, times = past ++ now_ms :: rest →
      (NoStale limit past now_ms ↔ StaleInFront (window_after limit [] past) now_ms) := by
    rintro past now_ms rest rfl
    exact noStale_iff (hrange now_ms (by simp)).2 (fun t ht => (hrange t (by simp [ht])).1)
  constructor
  · intro h past now_ms rest heq
    exact (hstep past now_ms rest heq).1 (h past now_ms rest heq)
  · intro h past now_ms rest heq
    exact (hstep past now_ms rest heq).2 (h past now_ms rest heq)

theorem no_stale_entry_counts_in_order : NoStale 2 [] 0 ∧ NoStale 2 [0] 30000 ∧ NoStale 2 [0, 30000] 60000 ∧
    NoStale 2 [0, 30000, 60000] 60001 := by
  have hnever := (no_stale_entry_counts_iff 2 [0, 30000, 60000, 60001] (by decide)).2 (fun past now_ms rest heq => by
    have hsorted : (past ++ now_ms :: rest).Pairwise (· ≤ ·) := heq ▸ by decide
    exact staleInFront_of_sorted ((List.pairwise_append.1 hsorted).1.sublist (window_sublist 2 past)))
  exact ⟨hnever [] 0 _ rfl, hnever [0] 30000 _ rfl, hnever [0, 30000] 60000 _ rfl, hnever [0, 30000, 60000] 60001 _ rfl⟩

/-- A caller that read its clock early records behind one that read it late. A minute after the early time it still counts. -/
theorem late_clock_keeps_stale : ¬ ∀ past now_ms rest, [100000, 0, 60001] = past ++ now_ms :: rest → NoStale 5 past now_ms := by
  intro h
  have hfresh := (h [100000, 0] 60001 [] rfl).1 0 (by decide)
  exact absurd hfresh (by decide)

end

end Ambush.Policy
