import Ambush.Core.Uuid
import Ambush.Lib.Loops
/-!
# Filters of a subscription

A filter asks for events by their fields; the filters of a subscription are alternatives.
Sets of a filter are lists, in any order. A tag is what the relay reads of it: the text of
its kind, which is its first element, and its content, the second.
-/
open Lib

namespace Ambush.Relay

abbrev CommunityId := Uuid

/-- Kinds are compared by their number. -/
abbrev Kind := BitVec 16

structure Tag where
  kind : String
  content : Option String
  deriving DecidableEq

structure Event where
  id : String
  pubkey : String
  created_at : Nat
  kind : Kind
  tags : List Tag

structure StoredEvent where
  event : Event
  channel_id : Option Uuid

/-- `generic_tags` has the values asked for under each letter. -/
structure Filter where
  ids : Option (List String) := none
  authors : Option (List String) := none
  kinds : Option (List Kind) := none
  since : Option Nat := none
  «until» : Option Nat := none
  generic_tags : List (Char × List String) := []
  deriving DecidableEq

/-! ## Matching -/

/-- One letter of `generic_tags`. Events without `h` tags are taken to have that of their channel. -/
def tag_matches (ev : StoredEvent) (tag_key : Char) (tag_values : List String) : Bool :=
  let tag_key_str := String.singleton tag_key
  let contents := (ev.event.tags.filter (·.kind = tag_key_str)).filterMap (·.content)
  let has_match := tag_values.any (fun filter_val => contents.any (· = filter_val))
  if !has_match && tag_key_str = "h" then
    if !ev.event.tags.any (·.kind = "h") then
      match ev.channel_id with
      | some ch_id => tag_values.any (· = Uuid.to_string ch_id)
      | none => false
    else false
  else has_match

def filter_match_one (f : Filter) (ev : StoredEvent) : Bool :=
  f.kinds.all (·.contains ev.event.kind) && f.authors.all (·.contains ev.event.pubkey) &&
    f.since.all (· ≤ ev.event.created_at) && f.until.all (ev.event.created_at ≤ ·) &&
    f.ids.all (·.any (fun id => ev.event.id.startsWith id)) &&
    f.generic_tags.all (fun (tag_key, tag_values) => tag_matches ev tag_key tag_values)

def filters_match (filters : List Filter) (event : StoredEvent) : Bool := filters.any (filter_match_one · event)

/-! ## What filters ask for -/

def extract_kinds_from_filters (filters : List Filter) : Option (List Kind) :=
  filters.foldlM (fun kinds f => f.kinds.map (fun filter_kinds => filter_kinds.foldl push_new kinds)) []

def p_tag : Char := 'p'

/-- The pairs of kind and recipient; `none` when some filter is not bound to both. -/
def extract_global_p_kind_index_keys (filters : List Filter) : Option (List (Kind × String)) :=
  filters.foldlM (fun keys filter =>
    filter.kinds.bind (fun kinds =>
      if kinds.isEmpty then some keys
      else
        (filter.generic_tags.lookup p_tag).bind (fun p_values =>
          if p_values.isEmpty then none
          else some (kinds.foldl (fun keys kind => p_values.foldl (fun keys p => push_new keys (kind, p)) keys) keys)))) []

def event_p_tag_values (event : StoredEvent) : List String :=
  (event.event.tags.filter (·.kind = "p")).foldl (fun values tag => tag.content.elim values (push_new values)) []

/-! ## Lemmas -/

theorem mem_extract_kinds {filters : List Filter} {kinds : List Kind} (h : extract_kinds_from_filters filters = some kinds) (kind : Kind) :
    kind ∈ kinds ↔ ∃ f ∈ filters, ∃ filter_kinds, f.kinds = some filter_kinds ∧ kind ∈ filter_kinds := by
  have hmem := mem_foldlM_iff (P := fun (f : Filter) kind => ∃ filter_kinds, f.kinds = some filter_kinds ∧ kind ∈ filter_kinds) ?_ h kind
  · simpa using hmem
  · intro acc f acc' hf x
    obtain ⟨filter_kinds, hkinds, rfl⟩ := Option.map_eq_some_iff.1 hf
    rw [mem_foldl_push_new, hkinds]
    simp

theorem mem_extract_p_kind {filters : List Filter} {keys : List (Kind × String)}
    (h : extract_global_p_kind_index_keys filters = some keys) (key : Kind × String) :
    key ∈ keys ↔ ∃ f ∈ filters, ∃ kinds, f.kinds = some kinds ∧ key.1 ∈ kinds ∧
      ∃ p_values, f.generic_tags.lookup p_tag = some p_values ∧ key.2 ∈ p_values := by
  have hmem := mem_foldlM_iff (P := fun (f : Filter) (key : Kind × String) => ∃ kinds, f.kinds = some kinds ∧ key.1 ∈ kinds ∧
    ∃ p_values, f.generic_tags.lookup p_tag = some p_values ∧ key.2 ∈ p_values) ?_ h key
  · simpa using hmem
  · intro acc f acc' hf x
    obtain ⟨kinds, hkinds, hf⟩ := Option.bind_eq_some_iff.1 hf
    split at hf
    next hempty =>
      cases hf
      simp [hkinds, List.isEmpty_iff.1 hempty]
    next =>
      obtain ⟨p_values, hp, hf⟩ := Option.bind_eq_some_iff.1 hf
      split at hf
      · cases hf
      · cases hf
        rw [mem_foldl_iff (P := fun kind x => ∃ p ∈ p_values, x = (kind, p)) fun keys kind x =>
          mem_foldl_iff (P := fun p x => x = (kind, p)) (fun _ _ _ => mem_push_new) p_values keys x]
        refine or_congr_right ?_
        constructor
        · rintro ⟨kind, hkind, p, hpmem, rfl⟩
          exact ⟨kinds, hkinds, hkind, p_values, hp, hpmem⟩
        · rintro ⟨kinds', hkinds', hkind, p_values', hp', hpmem⟩
          cases hkinds.symm.trans hkinds'
          cases hp.symm.trans hp'
          exact ⟨x.1, hkind, x.2, hpmem, rfl⟩

/-- Every filter that is bound to kinds at all is bound to recipients too. -/
theorem extract_p_kind_bound {filters : List Filter} {keys : List (Kind × String)}
    (h : extract_global_p_kind_index_keys filters = some keys) :
    ∀ f ∈ filters, ∃ kinds, f.kinds = some kinds ∧ (kinds ≠ [] → ∃ p_values, f.generic_tags.lookup p_tag = some p_values) := by
  refine forall_of_foldlM (fun acc f acc' hf => ?_) h
  obtain ⟨kinds, hkinds, hf⟩ := Option.bind_eq_some_iff.1 hf
  refine ⟨kinds, hkinds, fun hne => ?_⟩
  rw [if_neg (by simpa using hne)] at hf
  obtain ⟨p_values, hp, -⟩ := Option.bind_eq_some_iff.1 hf
  exact ⟨p_values, hp⟩

theorem extract_kinds_bound {filters : List Filter} {kinds : List Kind} (h : extract_kinds_from_filters filters = some kinds) :
    ∀ f ∈ filters, ∃ filter_kinds, f.kinds = some filter_kinds := by
  refine forall_of_foldlM (fun acc f acc' hf => ?_) h
  obtain ⟨filter_kinds, hkinds, -⟩ := Option.map_eq_some_iff.1 hf
  exact ⟨filter_kinds, hkinds⟩

theorem mem_event_p_tag_values {event : StoredEvent} {p : String} :
    p ∈ event_p_tag_values event ↔ ∃ tag ∈ event.event.tags, tag.kind = "p" ∧ tag.content = some p := by
  unfold event_p_tag_values
  rw [mem_foldl_iff (P := fun (tag : Tag) p => tag.content = some p)]
  · simp [and_assoc]
  · intro acc tag x
    cases tag.content with
    | none => simp
    | some value => simp [mem_push_new, eq_comm]

/-- A filter that matches has the event's kind among its kinds, if it names any. -/
theorem kind_of_match {f : Filter} {ev : StoredEvent} {kinds : List Kind} (h : filter_match_one f ev = true) (hkinds : f.kinds = some kinds) :
    ev.event.kind ∈ kinds := by
  unfold filter_match_one at h
  simp only [Bool.and_eq_true, hkinds, Option.all_some] at h
  simpa using h.1.1.1.1.1

/-- And one of the event's recipients among its recipients. -/
theorem recipient_of_match {f : Filter} {ev : StoredEvent} {p_values : List String} (h : filter_match_one f ev = true)
    (hp : f.generic_tags.lookup p_tag = some p_values) : ∃ p ∈ p_values, p ∈ event_p_tag_values ev := by
  unfold filter_match_one at h
  have htags := (Bool.and_eq_true _ _ ▸ h).2
  have hmem : (p_tag, p_values) ∈ f.generic_tags := by
    obtain ⟨before, after, hsplit, -⟩ := List.lookup_eq_some_iff.1 hp
    rw [hsplit]
    exact List.mem_append_right _ List.mem_cons_self
  have hmatch := List.all_eq_true.1 htags _ hmem
  dsimp only [tag_matches, p_tag] at hmatch
  rw [if_neg (by simp)] at hmatch
  obtain ⟨p, hpmem, hcontent⟩ := List.any_eq_true.1 hmatch
  obtain ⟨content, hcontent, hsame⟩ := List.any_eq_true.1 hcontent
  obtain ⟨tag, htag, hcontent⟩ := List.mem_filterMap.1 hcontent
  obtain ⟨htag, hkind⟩ := List.mem_filter.1 htag
  refine ⟨p, hpmem, mem_event_p_tag_values.2 ⟨tag, htag, of_decide_eq_true hkind, ?_⟩⟩
  rw [hcontent, of_decide_eq_true hsame]

end Ambush.Relay
