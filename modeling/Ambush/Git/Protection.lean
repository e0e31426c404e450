import Ambush.Git.Manifest
import Ambush.Lib.Results
import Mathlib.Data.List.Induction
/-!
# Protected refs

Who may push to a ref: a role from the channel, a built-in default for each kind of update, and the rules a repository's announcement
adds. All rules whose pattern covers a ref are united. What the union comes to is `evaluate_ref_update_ok_iff`: an update is accepted
when the default accepts it and so does every rule that covers its ref, and everything else about pushes is read off that.
-/
open Lib

namespace Ambush.Git.Perms

/-! ## Roles -/

inductive MemberRole where
  | Owner | Admin | Member | Guest | Bot
  deriving DecidableEq

namespace MemberRole

def as_str : MemberRole → String
  | .Owner => "owner"
  | .Admin => "admin"
  | .Member => "member"
  | .Guest => "guest"
  | .Bot => "bot"

def from_str (s : String) : Except String MemberRole :=
  if s = "owner" then .ok .Owner
  else if s = "admin" then .ok .Admin
  else if s = "member" then .ok .Member
  else if s = "guest" then .ok .Guest
  else if s = "bot" then .ok .Bot
  else .error s

def permission_level : MemberRole → Nat
  | .Owner => 4
  | .Admin => 3
  | .Member => 2
  | .Guest => 1
  | .Bot => 0

def has_at_least (role required : MemberRole) : Bool := required.permission_level ≤ role.permission_level

theorem permission_level_inj {a b : MemberRole} (h : a.permission_level = b.permission_level) : a = b := by
  cases a <;> cases b <;> first | rfl | cases h

/-- The stricter of a role and one there may be. -/
def strictest (existing : Option MemberRole) (role : MemberRole) : MemberRole :=
  match existing with
  | none => role
  | some existing => if role.permission_level > existing.permission_level then role else existing

/-- Both roles are met by who meets the stricter. -/
theorem strictest_le_iff {existing : Option MemberRole} {role : MemberRole} {level : Nat} :
    (strictest existing role).permission_level ≤ level ↔
      role.permission_level ≤ level ∧ ∀ old, existing = some old → old.permission_level ≤ level := by
  cases existing with
  | none => simp [strictest]
  | some existing =>
    unfold strictest
    dsimp only
    split
    · next hlt =>
      refine ⟨fun h => ⟨h, fun old hold => ?_⟩, And.left⟩
      rw [← Option.some.inj hold]
      exact le_of_lt (hlt.trans_le h)
    · next hle =>
      refine ⟨fun h => ⟨(not_lt.1 hle).trans h, fun old hold => ?_⟩, fun h => h.2 existing rfl⟩
      rw [← Option.some.inj hold]
      exact h

end MemberRole

/-! ## Patterns -/

def MAX_PROTECTION_RULES : Nat := 50

def MAX_PATTERN_LENGTH : Nat := 256

def MAX_WILDCARDS_PER_PATTERN : Nat := 3

inductive PatternSegment where
  | Literal (text : List Char)
  | Wildcard
  | RecursiveWildcard
  deriving DecidableEq

inductive PatternError where
  | Empty | TooLong | MissingRefsPrefix
  | InvalidSegment (segment : String)
  | TooManyWildcards
  deriving DecidableEq

/-- A pattern with a recursive wildcard nowhere but at its end. -/
structure RefPattern where
  raw : String
  segments : List PatternSegment
  recursive_last : .RecursiveWildcard ∉ segments.dropLast
  deriving DecidableEq

def PatternSegment.wildcards : PatternSegment → Nat
  | .Literal _ => 0
  | .Wildcard | .RecursiveWildcard => 1

def is_literal_char (c : Char) : Bool := c.isAlphanum || c == '.' || c == '_' || c == '-'

/-- One segment of a pattern, and whether it is the last. -/
def parse_segment (part : List Char) (last : Bool) : Except PatternError PatternSegment :=
  if part = ['*', '*'] then
    if last then .ok .RecursiveWildcard else .error (.InvalidSegment "** must be the last segment")
  else if part = ['*'] then .ok .Wildcard
  else if part = [] then .error (.InvalidSegment "")
  else if '*' ∈ part ∨ '?' ∈ part ∨ '[' ∈ part ∨ ']' ∈ part then .error (.InvalidSegment (String.ofList part))
  else if part.all is_literal_char then .ok (.Literal part)
  else .error (.InvalidSegment (String.ofList part))

/-- The loop over the parts, with the wildcards so far. -/
def parse_segments (wildcard_count : Nat) : List (List Char) → Except PatternError (List PatternSegment)
  | [] => .ok []
  | part :: parts =>
    match parse_segment part parts.isEmpty with
    | .error e => .error e
    | .ok segment =>
      if wildcard_count + segment.wildcards > MAX_WILDCARDS_PER_PATTERN then .error .TooManyWildcards
      else (parse_segments (wildcard_count + segment.wildcards) parts).map (segment :: ·)

theorem recursive_of_parse_segment {part : List Char} {last : Bool} (h : parse_segment part last = .ok .RecursiveWildcard) :
    last = true := by
  unfold parse_segment at h
  split at h
  · cases last with
    | true => rfl
    | false => cases h
  · split at h
    · cases h
    · split at h
      · cases h
      · split at h
        · cases h
        · split at h <;> cases h

theorem length_parse_segments {parts : List (List Char)} {wildcard_count : Nat} {segments : List PatternSegment}
    (h : parse_segments wildcard_count parts = .ok segments) : segments.length = parts.length := by
  induction parts generalizing wildcard_count segments with
  | nil =>
    cases h
    rfl
  | cons part parts ih =>
    rw [parse_segments] at h
    split at h
    · cases h
    · split at h
      · cases h
      · cases hrest : parse_segments (wildcard_count + PatternSegment.wildcards _) parts with
        | error e => rw [hrest] at h; cases h
        | ok rest =>
          rw [hrest] at h
          cases h
          rw [List.length_cons, List.length_cons, ih hrest]

theorem recursive_last_of_parse {parts : List (List Char)} {wildcard_count : Nat} {segments : List PatternSegment}
    (h : parse_segments wildcard_count parts = .ok segments) : .RecursiveWildcard ∉ segments.dropLast := by
  induction parts generalizing wildcard_count segments with
  | nil =>
    cases h
    exact List.not_mem_nil
  | cons part parts ih =>
    rw [parse_segments] at h
    split at h
    · cases h
    · next segment hsegment =>
      split at h
      · cases h
      · cases hrest : parse_segments (wildcard_count + segment.wildcards) parts with
        | error e => rw [hrest] at h; cases h
        | ok rest =>
          rw [hrest] at h
          cases h
          have hlength := length_parse_segments hrest
          cases rest with
          | nil => exact List.not_mem_nil
          | cons next rest =>
            intro hmem
            rcases List.mem_cons.1 hmem with heq | hmem
            · have hlast := recursive_of_parse_segment (heq ▸ hsegment)
              rw [List.isEmpty_iff.1 hlast] at hlength
              cases hlength
            · exact ih hrest hmem

namespace RefPattern

def parse (pattern : String) : Except PatternError RefPattern :=
  if pattern = "" then .error .Empty
  else if pattern.utf8ByteSize > MAX_PATTERN_LENGTH then .error .TooLong
  else if ( strip_prefix "refs/" pattern).isNone then .error .MissingRefsPrefix
  else
    match h : parse_segments 0 (pattern.toList.splitOn '/') with
    | .error e => .error e
    | .ok segments => .ok ⟨pattern, segments, recursive_last_of_parse h⟩

/-- One segment of a pattern against one of a ref; no pattern has a recursive wildcard here. -/
def segment_matches : PatternSegment → List Char → Bool
  | .Wildcard, _ => true
  | .Literal text, segment => text = segment
  | .RecursiveWildcard, _ => false

def «matches» (pattern : RefPattern) (ref_name : String) : Bool :=
  let ref_segments := ref_name.toList.splitOn '/'
  if pattern.segments.getLast? = some .RecursiveWildcard then
    let prefix_len := pattern.segments.length - 1
    if ref_segments.length ≤ prefix_len then false
    else ((pattern.segments.take prefix_len).zip (ref_segments.take prefix_len)).all (fun p => segment_matches p.1 p.2)
  else if ref_segments.length ≠ pattern.segments.length then false
  else (pattern.segments.zip ref_segments).all (fun p => segment_matches p.1 p.2)

end RefPattern

/-! ## Updates and rules -/

inductive UpdateKind where
  | Create | FastForward | NonFastForward | Delete
  deriving DecidableEq

def ZERO_OID : String := "0000000000000000000000000000000000000000"

def UpdateKind.classify (old_oid new_oid : String) (is_ancestor : Bool) : UpdateKind :=
  if old_oid = ZERO_OID then .Create
  else if new_oid = ZERO_OID then .Delete
  else if is_ancestor then .FastForward
  else .NonFastForward

structure RefUpdate where
  ref_name : String
  kind : UpdateKind
  old_oid : String
  new_oid : String
  deriving DecidableEq

structure ProtectionRule where
  pattern : RefPattern
  push_role : Option MemberRole := none
  no_force_push : Bool := false
  no_delete : Bool := false
  require_patch : Bool := false
  deriving DecidableEq

inductive RuleParseError where
  | TooFewValues | TooManyRules
  | InvalidPattern (error : PatternError)
  | InvalidRole (role : String)
  deriving DecidableEq

/-- One rule of a tag; a rule that is not known is reported. -/
def parse_rule (rule : ProtectionRule) (unknown_rules : List String) (rule_str : String) :
    Except RuleParseError (ProtectionRule × List String) :=
  match strip_prefix "push:" rule_str with
  | some role_str =>
    match MemberRole.from_str role_str with
    | .error _ | .ok .Bot | .ok .Guest => .error (.InvalidRole role_str)
    | .ok role => .ok ({ rule with push_role := some (MemberRole.strictest rule.push_role role) }, unknown_rules)
  | none =>
    if rule_str = "no-force-push" then .ok ({ rule with no_force_push := true }, unknown_rules)
    else if rule_str = "no-delete" then .ok ({ rule with no_delete := true }, unknown_rules)
    else if rule_str = "require-patch" then .ok ({ rule with require_patch := true }, unknown_rules)
    else .ok (rule, unknown_rules ++ [rule_str])

/-- The pattern of a tag and its rules; the tag's name is taken off. -/
def parse_protection_tag_with_warnings : List String → Except RuleParseError (ProtectionRule × List String)
  | pattern :: rule :: rules => do
    let pattern ← (RefPattern.parse pattern).mapError .InvalidPattern
    (rule :: rules).foldlM (fun parsed rule_str => parse_rule parsed.1 parsed.2 rule_str) ({ pattern }, [])
  | _ => .error .TooFewValues

/-- The rules of an announcement's tags, and what was not known. -/
def parse_protection_tags (tags : List (List String)) : Except RuleParseError (List ProtectionRule × List String) :=
  tags.foldlM (fun parsed tag =>
    match tag with
    | "ambush-protect" :: values =>
      if MAX_PROTECTION_RULES ≤ parsed.1.length then .error .TooManyRules
      else (parse_protection_tag_with_warnings values).map (fun (rule, unknowns) => (parsed.1 ++ [rule], parsed.2 ++ unknowns))
    | _ => .ok parsed) ([], [])

/-! ## Evaluation -/

def default_min_role (ref_name : String) (kind : UpdateKind) : MemberRole :=
  let is_branch := ( strip_prefix "refs/heads/" ref_name).isSome
  let is_tag := ( strip_prefix "refs/tags/" ref_name).isSome
  match kind with
  | .Create => if is_branch || is_tag then .Member else .Admin
  | .FastForward => if is_branch then .Member else .Admin
  | .NonFastForward => .Admin
  | .Delete => .Admin

structure EffectiveRules where
  push_role : Option MemberRole := none
  no_force_push : Bool := false
  no_delete : Bool := false
  require_patch : Bool := false
  has_explicit_match : Bool := false
  deriving DecidableEq

namespace EffectiveRules

/-- One rule more. -/
def union (ref_name : String) (e : EffectiveRules) (rule : ProtectionRule) : EffectiveRules :=
  if rule.pattern.matches ref_name then
    { push_role := (rule.push_role.map (MemberRole.strictest e.push_role)).or e.push_role
      no_force_push := e.no_force_push || rule.no_force_push
      no_delete := e.no_delete || rule.no_delete
      require_patch := e.require_patch || rule.require_patch
      has_explicit_match := true }
  else e

def for_ref (ref_name : String) (rules : List ProtectionRule) : EffectiveRules := rules.foldl (union ref_name) {}

end EffectiveRules

structure Denial where
  ref_name : String
  reason : String
  deriving DecidableEq

def evaluate_ref_update (update : RefUpdate) (role : MemberRole) (rules : List ProtectionRule) : Except Denial Unit :=
  let effective := EffectiveRules.for_ref update.ref_name rules
  let default_role := default_min_role update.ref_name update.kind
  if effective.has_explicit_match then
    -- A rule's role never weakens the default.
    let min_role :=
      match effective.push_role with
      | some explicit => if default_role.permission_level ≤ explicit.permission_level then explicit else default_role
      | none => default_role
    if effective.require_patch then
      .error ⟨update.ref_name, "direct push denied: require-patch is set, submit a NIP-34 patch"⟩
    else if !role.has_at_least min_role then
      .error ⟨update.ref_name, "requires " ++ min_role.as_str ++ " role (you have " ++ role.as_str ++ ")"⟩
    else if effective.no_force_push && decide (update.kind = .NonFastForward) then
      .error ⟨update.ref_name, "non-fast-forward update denied: no-force-push is set"⟩
    else if effective.no_delete && decide (update.kind = .Delete) then
      .error ⟨update.ref_name, "ref deletion denied: no-delete is set"⟩
    else .ok ()
  else if role.has_at_least default_role then .ok ()
  else .error ⟨update.ref_name,
    "requires " ++ default_role.as_str ++ " role (you have " ++ role.as_str ++ "), using built-in defaults"⟩

/-- A push is accepted whole or not at all. -/
def evaluate_push (updates : List RefUpdate) (role : MemberRole) (rules : List ProtectionRule) : Except (List Denial) Unit :=
  let denials := updates.filterMap (fun update =>
    match evaluate_ref_update update role rules with
    | .ok () => none
    | .error denial => some denial)
  if denials = [] then .ok () else .error denials

/-! ## The union of the rules -/

namespace EffectiveRules
variable {ref_name : String} {rules more : List ProtectionRule}

/-- What the covering rules of a list come to: a flag is set when one of them sets it, and the role is the strictest of theirs. -/
structure Unites (ref_name : String) (rules : List ProtectionRule) (e : EffectiveRules) : Prop where
  no_force_push : e.no_force_push = true ↔ ∃ r ∈ rules, r.pattern.matches ref_name = true ∧ r.no_force_push = true
  no_delete : e.no_delete = true ↔ ∃ r ∈ rules, r.pattern.matches ref_name = true ∧ r.no_delete = true
  require_patch : e.require_patch = true ↔ ∃ r ∈ rules, r.pattern.matches ref_name = true ∧ r.require_patch = true
  has_explicit_match : e.has_explicit_match = true ↔ ∃ r ∈ rules, r.pattern.matches ref_name = true
  silent : e.push_role = none ↔ ∀ r ∈ rules, r.pattern.matches ref_name = true → r.push_role = none
  met_iff : ∀ level, (∀ role, e.push_role = some role → role.permission_level ≤ level) ↔
    ∀ r ∈ rules, r.pattern.matches ref_name = true → ∀ role, r.push_role = some role → role.permission_level ≤ level

theorem unites_nil (ref_name : String) : Unites ref_name [] {} := by
  constructor <;> simp

theorem exists_mem_append_singleton {α : Type} {l : List α} {a : α} {p : α → Prop} :
    (∃ x ∈ l ++ [a], p x) ↔ (∃ x ∈ l, p x) ∨ p a := by
  simp [or_and_right, exists_or]

theorem Unites.union {e : EffectiveRules} (h : Unites ref_name rules e) (rule : ProtectionRule) :
    Unites ref_name (rules ++ [rule]) (e.union ref_name rule) := by
  unfold EffectiveRules.union
  split
  · next hmatch =>
    constructor
    · rw [exists_mem_append_singleton, Bool.or_eq_true, h.no_force_push, hmatch, eq_self, true_and]
    · rw [exists_mem_append_singleton, Bool.or_eq_true, h.no_delete, hmatch, eq_self, true_and]
    · rw [exists_mem_append_singleton, Bool.or_eq_true, h.require_patch, hmatch, eq_self, true_and]
    · rw [exists_mem_append_singleton, hmatch]
      simp
    · rw [List.forall_mem_append, List.forall_mem_singleton, ← h.silent]
      cases hpush : rule.push_role with
      | none => simp
      | some asked => simp [hmatch]
    · intro level
      rw [List.forall_mem_append, List.forall_mem_singleton, ← h.met_iff level]
      cases hpush : rule.push_role with
      | none => simp
      | some asked =>
        constructor
        · intro hmet
          have hboth := MemberRole.strictest_le_iff.1 (hmet _ rfl)
          refine ⟨hboth.2, fun _ role hrole => ?_⟩
          rw [← Option.some.inj hrole]
          exact hboth.1
        · rintro ⟨hold, hnew⟩ role hrole
          rw [← Option.some.inj hrole]
          exact MemberRole.strictest_le_iff.2 ⟨hnew hmatch asked rfl, hold⟩
  · next hmatch =>
    constructor
    · rw [exists_mem_append_singleton, h.no_force_push]
      simp [hmatch]
    · rw [exists_mem_append_singleton, h.no_delete]
      simp [hmatch]
    · rw [exists_mem_append_singleton, h.require_patch]
      simp [hmatch]
    · rw [exists_mem_append_singleton, h.has_explicit_match]
      simp [hmatch]
    · rw [List.forall_mem_append, List.forall_mem_singleton, ← h.silent]
      exact ⟨fun hnone => ⟨hnone, fun hcovers => absurd hcovers hmatch⟩, And.left⟩
    · intro level
      rw [List.forall_mem_append, List.forall_mem_singleton, ← h.met_iff level]
      exact ⟨fun hmet => ⟨hmet, fun hcovers => absurd hcovers hmatch⟩, And.left⟩

theorem unites_for_ref (ref_name : String) (rules : List ProtectionRule) : Unites ref_name rules (for_ref ref_name rules) := by
  induction rules using List.reverseRecOn with
  | nil => exact unites_nil ref_name
  | append_singleton rules rule ih =>
    rw [for_ref, List.foldl_append]
    exact ih.union rule

/-- The strictest role of a set of rules is one role. -/
theorem Unites.push_role_eq {e e' : EffectiveRules} (h : Unites ref_name rules e) (h' : Unites ref_name rules e') :
    e.push_role = e'.push_role := by
  have hsilent : e.push_role = none ↔ e'.push_role = none := by rw [h.silent, h'.silent]
  cases he : e.push_role with
  | none => exact (hsilent.1 he).symm
  | some role =>
    cases he' : e'.push_role with
    | none => exact absurd (hsilent.2 he') (by rw [he]; exact Option.some_ne_none role)
    | some role' =>
      have hmet : ∀ level, role.permission_level ≤ level ↔ role'.permission_level ≤ level := by
        intro level
        have hboth := (h.met_iff level).trans (h'.met_iff level).symm
        rw [he, he'] at hboth
        simpa using hboth
      rw [MemberRole.permission_level_inj (le_antisymm ((hmet _).2 le_rfl) ((hmet _).1 le_rfl))]

theorem Unites.eq {e e' : EffectiveRules} (h : Unites ref_name rules e) (h' : Unites ref_name rules e') : e = e' := by
  have hrole := h.push_role_eq h'
  have hforce := Bool.eq_iff_iff.2 (h.no_force_push.trans h'.no_force_push.symm)
  have hdelete := Bool.eq_iff_iff.2 (h.no_delete.trans h'.no_delete.symm)
  have hpatch := Bool.eq_iff_iff.2 (h.require_patch.trans h'.require_patch.symm)
  have hmatch := Bool.eq_iff_iff.2 (h.has_explicit_match.trans h'.has_explicit_match.symm)
  cases e
  cases e'
  simp_all

theorem Unites.of_mem {e : EffectiveRules} (h : Unites ref_name rules e) (hmem : ∀ r, r ∈ rules ↔ r ∈ more) :
    Unites ref_name more e := by
  constructor
  · simpa only [hmem] using h.no_force_push
  · simpa only [hmem] using h.no_delete
  · simpa only [hmem] using h.require_patch
  · simpa only [hmem] using h.has_explicit_match
  · simpa only [hmem] using h.silent
  · simpa only [hmem] using h.met_iff

/-- The union of a list is that of its set. -/
theorem for_ref_eq_of_mem (hmem : ∀ r, r ∈ rules ↔ r ∈ more) : for_ref ref_name rules = for_ref ref_name more :=
  ((unites_for_ref ref_name rules).of_mem hmem).eq (unites_for_ref ref_name more)

end EffectiveRules

/-! ## What is accepted -/

/-- A rule on its own lets a role make an update of a ref it covers. -/
structure ProtectionRule.Permits (rule : ProtectionRule) (role : MemberRole) (kind : UpdateKind) : Prop where
  patch : rule.require_patch = false
  push : ∀ asked, rule.push_role = some asked → asked.permission_level ≤ role.permission_level
  force : kind = .NonFastForward → rule.no_force_push = false
  delete : kind = .Delete → rule.no_delete = false

theorem has_at_least_stricter {role default_role : MemberRole} {push_role : Option MemberRole} :
    role.has_at_least (match push_role with
      | some explicit => if default_role.permission_level ≤ explicit.permission_level then explicit else default_role
      | none => default_role) = true ↔
    default_role.permission_level ≤ role.permission_level ∧
      ∀ asked, push_role = some asked → asked.permission_level ≤ role.permission_level := by
  cases push_role with
  | none => simp [MemberRole.has_at_least]
  | some explicit =>
    dsimp only
    split
    · next hle =>
      simp only [MemberRole.has_at_least, decide_eq_true_eq, Option.some.injEq, forall_eq']
      exact ⟨fun h => ⟨hle.trans h, h⟩, And.right⟩
    · next hlt =>
      simp only [MemberRole.has_at_least, decide_eq_true_eq, Option.some.injEq, forall_eq']
      exact ⟨fun h => ⟨h, (le_of_lt (not_le.1 hlt)).trans h⟩, And.left⟩

/-- The union permits what all of the covering rules permit. -/
theorem EffectiveRules.Unites.permits_iff {ref_name : String} {rules : List ProtectionRule} {e : EffectiveRules}
    (h : e.Unites ref_name rules) (role : MemberRole) (kind : UpdateKind) :
    (∀ rule ∈ rules, rule.pattern.matches ref_name = true → rule.Permits role kind) ↔
      e.require_patch = false ∧ (∀ asked, e.push_role = some asked → asked.permission_level ≤ role.permission_level) ∧
        (kind = .NonFastForward → e.no_force_push = false) ∧ (kind = .Delete → e.no_delete = false) := by
  have hunset {flag : Bool} {p : ProtectionRule → Bool}
      (hflag : flag = true ↔ ∃ r ∈ rules, r.pattern.matches ref_name = true ∧ p r = true) :
      flag = false ↔ ∀ r ∈ rules, r.pattern.matches ref_name = true → p r = false := by
    rw [← Bool.not_eq_true, hflag]
    simp only [not_exists, not_and, Bool.not_eq_true]
  rw [hunset h.require_patch, h.met_iff, hunset h.no_force_push, hunset h.no_delete]
  constructor
  · intro hall
    refine ⟨fun r hr hcovers => (hall r hr hcovers).patch, fun r hr hcovers => (hall r hr hcovers).push, fun hkind r hr hcovers => ?_,
      fun hkind r hr hcovers => ?_⟩
    · exact (hall r hr hcovers).force hkind
    · exact (hall r hr hcovers).delete hkind
  · rintro ⟨hpatch, hpush, hforce, hdelete⟩ r hr hcovers
    exact ⟨hpatch r hr hcovers, hpush r hr hcovers, fun hkind => hforce hkind r hr hcovers, fun hkind => hdelete hkind r hr hcovers⟩

/-- An update is accepted when the default accepts it, and so does every rule that covers its ref. -/
theorem evaluate_ref_update_ok_iff {update : RefUpdate} {role : MemberRole} {rules : List ProtectionRule} :
    evaluate_ref_update update role rules = .ok () ↔
      (default_min_role update.ref_name update.kind).permission_level ≤ role.permission_level ∧
        ∀ rule ∈ rules, rule.pattern.matches update.ref_name = true → rule.Permits role update.kind := by
  have hunites := EffectiveRules.unites_for_ref update.ref_name rules
  unfold evaluate_ref_update
  generalize EffectiveRules.for_ref update.ref_name rules = effective at hunites
  generalize default_min_role update.ref_name update.kind = default_role
  dsimp only
  by_cases hmatch : effective.has_explicit_match = true
  · rw [if_pos hmatch, hunites.permits_iff, and_left_comm, ← and_assoc (a := _ ≤ _), ← has_at_least_stricter]
    simp only [ok_guard_iff, Bool.not_eq_true, Bool.not_eq_false, Bool.not_eq_true', Bool.and_eq_false_iff, decide_eq_false_iff_not,
      and_true]
    simp only [or_iff_not_imp_right, not_not]
  · rw [if_neg hmatch]
    have hnone : ∀ rule ∈ rules, rule.pattern.matches update.ref_name ≠ true := by
      intro rule hrule hcovers
      exact hmatch (hunites.has_explicit_match.2 ⟨rule, hrule, hcovers⟩)
    simp only [MemberRole.has_at_least, decide_eq_true_eq]
    split
    · next hle => exact ⟨fun _ => ⟨hle, fun rule hrule hcovers => absurd hcovers (hnone rule hrule)⟩, fun _ => rfl⟩
    · next hlt => exact ⟨fun h => (nomatch h), fun h => absurd h.1 hlt⟩

theorem evaluate_push_ok_iff {updates : List RefUpdate} {role : MemberRole} {rules : List ProtectionRule} :
    evaluate_push updates role rules = .ok () ↔ ∀ update ∈ updates, evaluate_ref_update update role rules = .ok () := by
  unfold evaluate_push
  dsimp only
  split
  · next hnone =>
    refine ⟨fun _ update hupdate => ?_, fun _ => rfl⟩
    have hsome := List.filterMap_eq_nil_iff.1 hnone update hupdate
    cases hverdict : evaluate_ref_update update role rules with
    | ok => rfl
    | error denial =>
      rw [hverdict] at hsome
      cases hsome
  · next hsome =>
    refine ⟨fun h => (nomatch h), fun hall => absurd (List.filterMap_eq_nil_iff.2 fun update hupdate => ?_) hsome⟩
    rw [hall update hupdate]

/-- A push is accepted when, for each of its updates, the default accepts it and so does every rule that covers its ref. -/
theorem evaluate_push_iff {updates : List RefUpdate} {role : MemberRole} {rules : List ProtectionRule} :
    evaluate_push updates role rules = .ok () ↔ ∀ update ∈ updates,
      (default_min_role update.ref_name update.kind).permission_level ≤ role.permission_level ∧
        ∀ rule ∈ rules, rule.pattern.matches update.ref_name = true → rule.Permits role update.kind := by
  simp only [evaluate_push_ok_iff, evaluate_ref_update_ok_iff]

theorem ProtectionRule.Permits.higher {rule : ProtectionRule} {role higher : MemberRole} {kind : UpdateKind}
    (h : rule.Permits role kind) (hle : role.permission_level ≤ higher.permission_level) : rule.Permits higher kind :=
  { h with push := fun asked hasked => (h.push asked hasked).trans hle }

/-- Fewer rules accept more. -/
theorem evaluate_push_of_subset {updates : List RefUpdate} {role : MemberRole} {rules more : List ProtectionRule}
    (hsub : rules ⊆ more) (h : evaluate_push updates role more = .ok ()) : evaluate_push updates role rules = .ok () := by
  rw [evaluate_push_iff] at h ⊢
  intro update hupdate
  obtain ⟨hdefault, hrules⟩ := h update hupdate
  exact ⟨hdefault, fun rule hrule => hrules rule (hsub hrule)⟩

theorem evaluate_push_eq_of_mem {rules more : List ProtectionRule} (hmem : ∀ r, r ∈ rules ↔ r ∈ more) (updates : List RefUpdate)
    (role : MemberRole) : evaluate_push updates role rules = evaluate_push updates role more := by
  have hverdict : ∀ update, evaluate_ref_update update role rules = evaluate_ref_update update role more := by
    intro update
    rw [evaluate_ref_update, evaluate_ref_update, EffectiveRules.for_ref_eq_of_mem hmem]
  rw [evaluate_push, evaluate_push]
  simp only [hverdict]

/-- Rules only tighten what a role may push, whatever their order; a higher role may push what a lower one may; and no rules let a
role push below the built-in default. -/
theorem protection_only_tightens (rules more : List ProtectionRule) (updates : List RefUpdate) (role : MemberRole) :
    (evaluate_push updates role (rules ++ more) = .ok () →
      evaluate_push updates role rules = .ok () ∧ evaluate_push updates role [] = .ok ()) ∧
    ((∀ rule, rule ∈ rules ↔ rule ∈ more) → evaluate_push updates role rules = evaluate_push updates role more) ∧
    (∀ higher : MemberRole, role.permission_level ≤ higher.permission_level → evaluate_push updates role rules = .ok () →
      evaluate_push updates higher rules = .ok ()) ∧
    (evaluate_push updates role rules = .ok () → ∀ update ∈ updates,
      role.has_at_least (default_min_role update.ref_name update.kind) = true) := by
  refine ⟨fun h => ⟨?_, ?_⟩, fun hmem => evaluate_push_eq_of_mem hmem updates role, fun higher hle h => ?_, fun h update hupdate => ?_⟩
  · exact evaluate_push_of_subset (List.subset_append_left rules more) h
  · exact evaluate_push_of_subset (List.nil_subset _) h
  · rw [evaluate_push_iff] at h ⊢
    intro update hupdate
    obtain ⟨hdefault, hrules⟩ := h update hupdate
    exact ⟨hdefault.trans hle, fun rule hrule hcovers => (hrules rule hrule hcovers).higher hle⟩
  · exact decide_eq_true (evaluate_push_iff.1 h update hupdate).1

/-- A rule that only forbids forced pushes leaves a guest below the default. -/
example : (parse_protection_tags [["ambush-protect", "refs/heads/main", "no-force-push"]]).map (fun parsed =>
    (evaluate_push [⟨"refs/heads/main", .FastForward, "", ""⟩] .Member parsed.1,
      evaluate_push [⟨"refs/heads/main", .FastForward, "", ""⟩] .Guest parsed.1)) =
    .ok (.ok (), .error [⟨"refs/heads/main", "requires member role (you have guest)"⟩]) := by
  decide +kernel

end Ambush.Git.Perms
