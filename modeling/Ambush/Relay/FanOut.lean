import Ambush.Lib.Runs
import Ambush.Relay.Subscriptions
/-!
# Fan-out through the indexes

A subscription is listed under the slots that its filters and its scope call for, and under
no others, after any calls. An event is looked up under few slots, and a subscription that
wants it is under one of them, so the indexes miss nobody and the check of the current
entry lets nobody else through.
-/
open Lib

namespace Ambush.Relay

/-! ## The slots of a subscription -/

/-- The slots in a channel. -/
def channel_slots (filters : List Filter) (community_id : CommunityId) (ch_id : Uuid) : List Slot :=
  match extract_kinds_from_filters filters with
  | none => [.channel_wildcard community_id ch_id]
  | some kinds => kinds.map (.channel_kind community_id ch_id)

def global_slots (filters : List Filter) (community_id : CommunityId) : List Slot :=
  match extract_global_p_kind_index_keys filters with
  | some keys => keys.map (fun key => .global_p_kind community_id key.1 key.2)
  | none =>
    match extract_kinds_from_filters filters with
    | none => [.global_wildcard community_id]
    | some kinds => kinds.map (.global_kind community_id)

/-- The slots that filters and a scope call for. -/
def slots (filters : List Filter) (community_id : CommunityId) : SubscriptionScope → List Slot
  | .Channels channel_ids => channel_ids.flatMap (channel_slots filters community_id)
  | .Global => global_slots filters community_id

def SubEntry.slots (e : SubEntry) : List Slot := Relay.slots e.filters e.community_id e.scope

/-- The way both loops take: a change of the index at each slot. -/
def over_slots (f : Index → Slot → Index) (filters : List Filter) (community_id : CommunityId) (index : Index) :
    SubscriptionScope → Index
  | .Channels channel_ids =>
    channel_ids.foldl (fun index ch_id =>
      match extract_kinds_from_filters filters with
      | none => f index (.channel_wildcard community_id ch_id)
      | some kinds => kinds.foldl (fun index kind => f index (.channel_kind community_id ch_id kind)) index) index
  | .Global =>
    match extract_global_p_kind_index_keys filters with
    | some keys => keys.foldl (fun index key => f index (.global_p_kind community_id key.1 key.2)) index
    | none =>
      match extract_kinds_from_filters filters with
      | none => f index (.global_wildcard community_id)
      | some kinds => kinds.foldl (fun index kind => f index (.global_kind community_id kind)) index

theorem over_slots_eq (f : Index → Slot → Index) (filters : List Filter) (community_id : CommunityId) (index : Index)
    (scope : SubscriptionScope) : over_slots f filters community_id index scope = (slots filters community_id scope).foldl f index := by
  cases scope with
  | Channels channel_ids =>
    unfold over_slots slots
    dsimp only
    rw [List.foldl_flatMap]
    refine congrArg (fun f => channel_ids.foldl f index) (funext fun index => funext fun ch_id => ?_)
    unfold channel_slots
    cases extract_kinds_from_filters filters with
    | none => rfl
    | some kinds =>
      dsimp only
      rw [List.foldl_map]
  | Global =>
    unfold over_slots slots global_slots
    dsimp only
    cases extract_global_p_kind_index_keys filters with
    | some keys =>
      dsimp only
      rw [List.foldl_map]
    | none =>
      cases extract_kinds_from_filters filters with
      | none => rfl
      | some kinds =>
        dsimp only
        rw [List.foldl_map]

/-- Registering goes over the slots. -/
theorem add_to_index_eq (index : Index) (conn_id : ConnId) (sub_id : SubId) (filters : List Filter) (community_id : CommunityId)
    (scope : SubscriptionScope) :
    add_to_index index conn_id sub_id filters community_id scope =
      (slots filters community_id scope).foldl (fun index slot => index.push slot (conn_id, sub_id)) index := by
  rw [← over_slots_eq]
  cases scope <;> rfl

/-- And removing derives the same slots again. -/
theorem remove_from_index_eq (index : Index) (conn_id : ConnId) (sub_id : SubId) (filters : List Filter) (community_id : CommunityId)
    (scope : SubscriptionScope) :
    remove_from_index index conn_id sub_id filters community_id scope =
      (slots filters community_id scope).foldl (fun index slot => index.retain slot conn_id sub_id) index := by
  rw [← over_slots_eq]
  cases scope <;> rfl

theorem mem_push {index : Index} {slot slot' : Slot} {pair x : ConnId × SubId} :
    x ∈ (index.push slot pair).listed slot' ↔ x ∈ index.listed slot' ∨ slot' = slot ∧ x = pair := by
  rw [Map.listed_push]
  split
  next h => simp [h]
  next h => simp [h]

theorem mem_retain {index : Index} {slot slot' : Slot} {conn_id : ConnId} {sub_id : SubId} {x : ConnId × SubId} :
    x ∈ (index.retain slot conn_id sub_id).listed slot' ↔ x ∈ index.listed slot' ∧ ¬(slot' = slot ∧ x = (conn_id, sub_id)) := by
  unfold Index.retain
  rw [Map.listed_retain]
  split
  next h => simp [h, Prod.ext_iff, imp_iff_not_or]
  next h => simp [h]

section
variable (index : Index) (conn_id : ConnId) (sub_id : SubId) (filters : List Filter) (community_id : CommunityId)
  (scope : SubscriptionScope)

theorem mem_add_to_index {slot : Slot} {x : ConnId × SubId} :
    x ∈ (add_to_index index conn_id sub_id filters community_id scope).listed slot ↔
      x ∈ index.listed slot ∨ slot ∈ slots filters community_id scope ∧ x = (conn_id, sub_id) := by
  rw [add_to_index_eq]
  generalize slots filters community_id scope = ks
  induction ks generalizing index with
  | nil => simp
  | cons k ks ih =>
    rw [List.foldl_cons, ih, mem_push, List.mem_cons]
    tauto

theorem mem_remove_from_index {slot : Slot} {x : ConnId × SubId} :
    x ∈ (remove_from_index index conn_id sub_id filters community_id scope).listed slot ↔
      x ∈ index.listed slot ∧ ¬(slot ∈ slots filters community_id scope ∧ x = (conn_id, sub_id)) := by
  rw [remove_from_index_eq]
  generalize slots filters community_id scope = ks
  induction ks generalizing index with
  | nil => simp
  | cons k ks ih =>
    rw [List.foldl_cons, ih, mem_retain, List.mem_cons]
    tauto

variable {index}

theorem tidy_add_to_index (h : index.Tidy) : (add_to_index index conn_id sub_id filters community_id scope).Tidy := by
  rw [add_to_index_eq]
  exact List.foldlRecOn _ _ h fun _ h _ _ => Map.tidy_push _ _ h

theorem tidy_remove_from_index (h : index.Tidy) : (remove_from_index index conn_id sub_id filters community_id scope).Tidy := by
  rw [remove_from_index_eq]
  exact List.foldlRecOn _ _ h fun _ h _ _ => Map.tidy_retain _ _ h

end

/-- The slots in a channel name the channel. -/
theorem channel_slots_disjoint {filters : List Filter} {community_id community_id' : CommunityId} {ch_id ch_id' : Uuid} {slot : Slot}
    (h : slot ∈ channel_slots filters community_id ch_id) (h' : slot ∈ channel_slots filters community_id' ch_id') : ch_id' = ch_id := by
  unfold channel_slots at h h'
  cases hkinds : extract_kinds_from_filters filters with
  | none =>
    rw [hkinds] at h h'
    cases (List.mem_singleton.1 h).symm.trans (List.mem_singleton.1 h')
    rfl
  | some kinds =>
    rw [hkinds] at h h'
    obtain ⟨kind, -, rfl⟩ := List.mem_map.1 h
    obtain ⟨kind', -, hslot⟩ := List.mem_map.1 h'
    cases hslot
    rfl

theorem slots_without_channel {filters : List Filter} {community_id : CommunityId} {channel_ids : List Uuid} {channel_id : Uuid}
    {slot : Slot} :
    slot ∈ slots filters community_id (.Channels (channel_ids.filter (· ≠ channel_id))) ↔
      slot ∈ slots filters community_id (.Channels channel_ids) ∧ slot ∉ slots filters community_id (.Channels [channel_id]) := by
  simp only [slots, List.mem_flatMap, List.mem_filter, decide_eq_true_eq, List.mem_singleton, exists_eq_left]
  constructor
  · rintro ⟨ch_id, ⟨hmem, hne⟩, hslot⟩
    exact ⟨⟨ch_id, hmem, hslot⟩, fun hslot' => hne (channel_slots_disjoint hslot' hslot)⟩
  · rintro ⟨⟨ch_id, hmem, hslot⟩, hnot⟩
    exact ⟨ch_id, ⟨hmem, fun h => hnot (h ▸ hslot)⟩, hslot⟩

/-! ## Listed under these slots and no others -/

namespace SubscriptionRegistry

structure Indexed (r : SubscriptionRegistry) : Prop where
  exact : ∀ slot conn_id sub_id, (conn_id, sub_id) ∈ r.index.listed slot ↔ ∃ e, r.entry conn_id sub_id = some e ∧ slot ∈ e.slots
  tidy : r.index.Tidy

variable {r : SubscriptionRegistry} {conn_id : ConnId} {sub_id : SubId} {e : SubEntry}

theorem entry_eq_some : r.entry conn_id sub_id = some e ↔ ∃ conn_subs, r.subs conn_id = some conn_subs ∧ conn_subs sub_id = some e :=
  Option.bind_eq_some_iff

theorem entry_stored (subs : Map ConnId (Map SubId SubEntry)) (index : Index) (conn_subs : Map SubId SubEntry) (conn : ConnId) (sub : SubId) :
    entry ⟨subs.insert conn_id conn_subs, index⟩ conn sub = if conn = conn_id then conn_subs sub else entry ⟨subs, index⟩ conn sub := by
  unfold entry
  dsimp only
  rw [Map.insert_apply]
  split <;> rfl

/-- A subscription is gone from the entries and from its slots. -/
theorem Indexed.without {r' : SubscriptionRegistry} (h : r.Indexed) (he : r.entry conn_id sub_id = some e)
    (hentry : ∀ conn sub, r'.entry conn sub = if conn = conn_id ∧ sub = sub_id then none else r.entry conn sub)
    (hindex : r'.index = remove_from_index r.index conn_id sub_id e.filters e.community_id e.scope) : r'.Indexed := by
  refine ⟨fun slot conn sub => ?_, hindex ▸ tidy_remove_from_index _ _ _ _ _ h.tidy⟩
  rw [hindex, mem_remove_from_index, h.exact, hentry]
  by_cases hsame : conn = conn_id ∧ sub = sub_id
  · rw [if_pos hsame, hsame.1, hsame.2]
    simp only [he, Option.some.injEq, exists_eq_left', reduceCtorEq, false_and, exists_false, iff_false]
    exact fun hslot => hslot.2 ⟨hslot.1, trivial⟩
  · rw [if_neg hsame]
    refine and_iff_left fun hslot => hsame ?_
    exact ⟨congrArg Prod.fst hslot.2, congrArg Prod.snd hslot.2⟩

theorem remove_subscription_indexed (h : r.Indexed) (conn_id : ConnId) (sub_id : SubId) :
    (r.remove_subscription conn_id sub_id).1.Indexed ∧
      ∀ conn sub, (r.remove_subscription conn_id sub_id).1.entry conn sub =
        if conn = conn_id ∧ sub = sub_id then none else r.entry conn sub := by
  have hnone : r.entry conn_id sub_id = none →
      ∀ conn sub, r.entry conn sub = if conn = conn_id ∧ sub = sub_id then none else r.entry conn sub := by
    intro hnone conn sub
    split
    next hsame => rw [hsame.1, hsame.2, hnone]
    next => rfl
  unfold remove_subscription
  cases hsubs : r.subs conn_id with
  | none => exact ⟨h, hnone (by rw [entry, hsubs, Option.bind_none])⟩
  | some conn_subs =>
    dsimp only
    cases hsub : conn_subs sub_id with
    | none => exact ⟨h, hnone (by rw [entry, hsubs, Option.bind_some, hsub])⟩
    | some e =>
      have he : r.entry conn_id sub_id = some e := entry_eq_some.2 ⟨conn_subs, hsubs, hsub⟩
      refine (fun hentry => ⟨h.without he hentry rfl, hentry⟩) fun conn sub => ?_
      rw [entry_stored]
      by_cases hconn : conn = conn_id
      · rw [if_pos hconn, Map.remove_apply]
        simp only [hconn, true_and]
        split
        · rfl
        · rw [entry, hsubs, Option.bind_some]
      · rw [if_neg hconn, if_neg fun hsame => hconn hsame.1]
        rfl

theorem register_indexed (h : r.Indexed) (community_id : CommunityId) (conn_id : ConnId) (sub_id : SubId) (filters : List Filter)
    (scope : SubscriptionScope) : (r.register_with_scope community_id conn_id sub_id filters scope).1.Indexed := by
  unfold register_with_scope
  obtain ⟨h', hentry⟩ := remove_subscription_indexed h conn_id sub_id
  generalize r.remove_subscription conn_id sub_id = removed at h' hentry
  obtain ⟨r', removed⟩ := removed
  dsimp only at h' hentry ⊢
  refine ⟨fun slot conn sub => ?_, tidy_add_to_index _ _ _ _ _ h'.tidy⟩
  rw [mem_add_to_index, h'.exact, entry_stored]
  by_cases hconn : conn = conn_id
  · rw [if_pos hconn, Map.insert_apply, hconn]
    have hold := hentry conn_id sub
    split
    next hsub =>
      rw [if_pos ⟨rfl, hsub⟩, hsub] at hold
      simp [hold, hsub, SubEntry.slots]
    next hsub =>
      have hsame : ((r'.subs conn_id).getD Map.empty) sub = r'.entry conn_id sub := by
        unfold entry
        cases r'.subs conn_id <;> rfl
      simp [hsame, hsub]
  · rw [if_neg hconn]
    simp [hconn, entry]

/-- The walk goes over every subscription of the connection, once. -/
def Lists (walk : List SubId) (conn_subs : Option (Map SubId SubEntry)) : Prop :=
  walk.Nodup ∧ ∀ sub_id, sub_id ∈ walk ↔ (conn_subs.bind (· sub_id)).isSome

theorem mem_remove_all {entries : List (SubId × SubEntry)} {index : Index} {slot : Slot} {x : ConnId × SubId} :
    x ∈ (entries.foldl (fun index (p : SubId × SubEntry) =>
        remove_from_index index conn_id p.1 p.2.filters p.2.community_id p.2.scope) index).listed slot ↔
      x ∈ index.listed slot ∧ ∀ p ∈ entries, ¬(slot ∈ p.2.slots ∧ x = (conn_id, p.1)) := by
  induction entries generalizing index with
  | nil => simp
  | cons p entries ih =>
    rw [List.foldl_cons, ih, mem_remove_from_index, List.forall_mem_cons, and_assoc]
    rfl

theorem remove_connection_indexed (h : r.Indexed) {walk : List SubId} (hwalk : Lists walk (r.subs conn_id)) :
    (r.remove_connection conn_id walk).1.Indexed := by
  unfold remove_connection
  cases hsubs : r.subs conn_id with
  | none => exact h
  | some conn_subs =>
    dsimp only
    refine ⟨fun slot conn sub => ?_, ?_⟩
    · change (conn, sub) ∈ ((walk.filterMap fun sub_id => (conn_subs sub_id).map (sub_id, ·)).foldl (fun index (p : SubId × SubEntry) =>
        remove_from_index index conn_id p.1 p.2.filters p.2.community_id p.2.scope) r.index).listed slot ↔ _
      rw [mem_remove_all, h.exact]
      have hentry : entry ⟨r.subs.remove conn_id, r.index⟩ conn sub = if conn = conn_id then none else r.entry conn sub := by
        unfold entry
        dsimp only
        rw [Map.remove_apply]
        split <;> rfl
      change _ ↔ ∃ e, entry ⟨r.subs.remove conn_id, r.index⟩ conn sub = some e ∧ slot ∈ e.slots
      rw [hentry]
      by_cases hconn : conn = conn_id
      · rw [if_pos hconn, hconn]
        simp only [reduceCtorEq, false_and, exists_false, iff_false]
        -- its entry was walked over
        rintro ⟨⟨e, he, hslot⟩, hnone⟩
        rw [entry, hsubs, Option.bind_some] at he
        refine hnone (sub, e) (List.mem_filterMap.2 ⟨sub, (hwalk.2 sub).2 ?_, by rw [he]; rfl⟩) ⟨hslot, rfl⟩
        rw [hsubs, Option.bind_some, he]
        rfl
      · rw [if_neg hconn]
        exact and_iff_left fun p _ hp => hconn (congrArg Prod.fst hp.2)
    · exact List.foldlRecOn _ _ h.tidy fun _ h _ _ => tidy_remove_from_index _ _ _ _ _ h

/-- One entry of a connection is replaced, or goes. -/
theorem entry_replaced {conn_subs : Map SubId SubEntry} (hsubs : r.subs conn_id = some conn_subs) (e : SubEntry) (removed : Bool)
    (index : Index) (conn : ConnId) (sub : SubId) :
    entry ⟨r.subs.insert conn_id (if removed then (conn_subs.insert sub_id e).remove sub_id else conn_subs.insert sub_id e), index⟩
        conn sub =
      if conn = conn_id ∧ sub = sub_id then if removed then none else some e else r.entry conn sub := by
  rw [entry_stored]
  by_cases hconn : conn = conn_id
  · by_cases hsub : sub = sub_id
    · simp only [hconn, hsub, and_self, if_true]
      cases removed <;> simp
    · have hne : ¬(conn = conn_id ∧ sub = sub_id) := fun hsame => hsub hsame.2
      rw [if_pos hconn, if_neg hne, hconn, entry, hsubs, Option.bind_some]
      cases removed <;> simp [Map.remove_ne, Map.insert_ne, hsub]
  · rw [if_neg hconn, if_neg fun hsame => hconn hsame.1]
    rfl

theorem remove_channel_indexed (h : r.Indexed) (community_id : CommunityId) (conn_id : ConnId) (channel_id : Uuid) (sub_id : SubId)
    (hcommunity : ∀ e, r.entry conn_id sub_id = some e → e.community_id = community_id) :
    (r.remove_channel community_id conn_id channel_id sub_id).1.Indexed ∧
      ∀ conn sub e', (r.remove_channel community_id conn_id channel_id sub_id).1.entry conn sub = some e' →
        ∃ e, r.entry conn sub = some e ∧ e'.community_id = e.community_id := by
  unfold remove_channel
  cases hsubs : r.subs conn_id with
  | none => exact ⟨h, fun conn sub e he => ⟨e, he, rfl⟩⟩
  | some conn_subs =>
    dsimp only
    cases hsub : conn_subs sub_id with
    | none => exact ⟨h, fun conn sub e he => ⟨e, he, rfl⟩⟩
    | some e =>
      have he : r.entry conn_id sub_id = some e := entry_eq_some.2 ⟨conn_subs, hsubs, hsub⟩
      dsimp only
      cases hscope : e.scope with
      | Global => exact ⟨h, fun conn sub e he => ⟨e, he, rfl⟩⟩
      | Channels channel_ids =>
        dsimp only
        have hentry := @entry_replaced r conn_id sub_id conn_subs hsubs { e with scope := .Channels (channel_ids.filter (· ≠ channel_id)) }
          (channel_ids.filter (· ≠ channel_id)).isEmpty
        have htidy := tidy_remove_from_index conn_id sub_id e.filters community_id (.Channels [channel_id]) h.tidy
        refine ⟨⟨fun slot conn sub => ?_, htidy⟩, fun conn sub e' he' => ?_⟩
        · rw [mem_remove_from_index, h.exact, hentry, ← hcommunity e he]
          by_cases hsame : conn = conn_id ∧ sub = sub_id
          · have hslots := @slots_without_channel e.filters e.community_id channel_ids channel_id slot
            rw [if_pos hsame, hsame.1, hsame.2, he]
            simp only [Option.some.injEq, exists_eq_left', SubEntry.slots, hscope, and_true]
            rw [← hslots]
            split
            next hempty =>
              rw [List.isEmpty_iff.1 hempty]
              simp [slots]
            next => simp
          · rw [if_neg hsame]
            refine and_iff_left fun hslot => hsame ?_
            exact ⟨congrArg Prod.fst hslot.2, congrArg Prod.snd hslot.2⟩
        · rw [hentry] at he'
          split at he'
          next hsame =>
            split at he'
            · cases he'
            · cases he'
              exact ⟨e, by rw [hsame.1, hsame.2, he], rfl⟩
          next => exact ⟨e', he', rfl⟩

theorem remove_channel_subscriptions_indexed (h : r.Indexed) (community_id : CommunityId) (conn_id : ConnId) (channel_id : Uuid)
    (walk : List SubId) : (r.remove_channel_subscriptions_scoped community_id conn_id channel_id walk).1.Indexed := by
  unfold remove_channel_subscriptions_scoped
  dsimp only
  generalize hids : walk.filter _ = sub_ids
  have hcommunity : ∀ sub_id ∈ sub_ids, ∀ e, r.entry conn_id sub_id = some e → e.community_id = community_id := by
    intro sub_id hsub e he
    rw [← hids] at hsub
    have hfound := (List.mem_filter.1 hsub).2
    rw [he, Option.any_some, Bool.and_eq_true] at hfound
    exact of_decide_eq_true hfound.1
  clear hids
  generalize ([] : List ChannelSubscriptionUpdate) = updates
  induction sub_ids generalizing r updates with
  | nil => exact h
  | cons sub_id sub_ids ih =>
    rw [List.foldl_cons]
    obtain ⟨h', hkept⟩ := remove_channel_indexed h community_id conn_id channel_id sub_id (hcommunity sub_id List.mem_cons_self)
    refine ih h' (fun sub hsub e' he' => ?_) _
    obtain ⟨e, he, hsame⟩ := hkept conn_id sub e' he'
    rw [hsame]
    exact hcommunity sub (List.mem_cons_of_mem _ hsub) e he

/-! ## Whoever wants an event is found -/

/-- A subscription that wants an event is under a slot that is looked into. -/
theorem slot_of_match {filters : List Filter} {community_id : CommunityId} {scope : SubscriptionScope} {event : StoredEvent}
    (hscope : scope.matches_channel event.channel_id = true) (hmatch : filters_match filters event = true) :
    ∃ slot ∈ slots filters community_id scope, slot ∈ candidate_slots community_id event := by
  obtain ⟨f, hf, hmatch⟩ := List.any_eq_true.1 hmatch
  unfold candidate_slots
  cases scope with
  | Channels channel_ids =>
    cases hchannel : event.channel_id with
    | none =>
      rw [hchannel] at hscope
      cases hscope
    | some channel_id =>
      rw [hchannel] at hscope
      have hmem : channel_id ∈ channel_ids := by simpa [SubscriptionScope.matches_channel] using hscope
      suffices hslot : ∃ slot ∈ channel_slots filters community_id channel_id,
          slot ∈ [Slot.channel_kind community_id channel_id event.event.kind, .channel_wildcard community_id channel_id] by
        obtain ⟨slot, hslot, hcandidate⟩ := hslot
        exact ⟨slot, List.mem_flatMap.2 ⟨channel_id, hmem, hslot⟩, hcandidate⟩
      unfold channel_slots
      cases hkinds : extract_kinds_from_filters filters with
      | none => exact ⟨_, List.mem_singleton_self _, by simp⟩
      | some kinds =>
        obtain ⟨filter_kinds, hfilter⟩ := extract_kinds_bound hkinds f hf
        have hkind := (mem_extract_kinds hkinds event.event.kind).2 ⟨f, hf, filter_kinds, hfilter, kind_of_match hmatch hfilter⟩
        exact ⟨_, List.mem_map_of_mem hkind, by simp⟩
  | Global =>
    cases hchannel : event.channel_id with
    | some channel_id =>
      rw [hchannel] at hscope
      cases hscope
    | none =>
      unfold slots global_slots
      dsimp only
      cases hkeys : extract_global_p_kind_index_keys filters with
      | some keys =>
        obtain ⟨kinds, hkinds, hbound⟩ := extract_p_kind_bound hkeys f hf
        have hkind := kind_of_match hmatch hkinds
        obtain ⟨p_values, hp⟩ := hbound (List.ne_nil_of_mem hkind)
        obtain ⟨p, hpmem, hpevent⟩ := recipient_of_match hmatch hp
        have hkey := (mem_extract_p_kind hkeys (event.event.kind, p)).2 ⟨f, hf, kinds, hkinds, hkind, p_values, hp, hpmem⟩
        exact ⟨_, List.mem_map_of_mem hkey, List.mem_append_left _ (List.mem_map_of_mem hpevent)⟩
      | none =>
        dsimp only
        cases hkinds : extract_kinds_from_filters filters with
        | none => exact ⟨_, List.mem_singleton_self _, by simp⟩
        | some kinds =>
          obtain ⟨filter_kinds, hfilter⟩ := extract_kinds_bound hkinds f hf
          have hkind := (mem_extract_kinds hkinds event.event.kind).2 ⟨f, hf, filter_kinds, hfilter, kind_of_match hmatch hfilter⟩
          exact ⟨_, List.mem_map_of_mem hkind, by simp⟩

variable {community_id : CommunityId} {event : StoredEvent}

theorem wants_iff : r.wants community_id event (conn_id, sub_id) = true ↔ ∃ filters scope,
    r.entry conn_id sub_id = some ⟨filters, community_id, scope⟩ ∧ scope.matches_channel event.channel_id = true ∧
      filters_match filters event = true := by
  unfold wants
  cases hentry : r.entry conn_id sub_id with
  | none => simp
  | some e =>
    obtain ⟨filters, community, scope⟩ := e
    simp only [Option.any_some, Bool.and_eq_true, decide_eq_true_eq, Option.some.injEq, SubEntry.mk.injEq]
    constructor
    · rintro ⟨⟨hcommunity, hscope⟩, hfilters⟩
      exact ⟨filters, scope, ⟨rfl, hcommunity, rfl⟩, hscope, hfilters⟩
    · rintro ⟨filters, scope, ⟨rfl, hcommunity, rfl⟩, hscope, hfilters⟩
      exact ⟨⟨hcommunity, hscope⟩, hfilters⟩

theorem mem_fan_out {pair : ConnId × SubId} : pair ∈ r.fan_out_scoped community_id event ↔
    r.wants community_id event pair = true ∧ ∃ slot ∈ candidate_slots community_id event, pair ∈ r.index.listed slot := by
  have hpush : ∀ results pair x, x ∈ r.push_match community_id event results pair ↔
      x ∈ results ∨ (r.wants community_id event pair = true ∧ x = pair) := by
    intro results pair x
    unfold push_match
    split
    next hwants => simp [hwants, mem_push_new]
    next hwants => simp [hwants]
  unfold fan_out_scoped
  rw [mem_foldl_iff fun results slot x => mem_foldl_iff hpush (r.index.listed slot) results x]
  constructor
  · rintro (h | ⟨slot, hslot, pair', hpair, hwants, rfl⟩)
    · cases h
    · exact ⟨hwants, slot, hslot, hpair⟩
  · rintro ⟨hwants, slot, hslot, hpair⟩
    exact .inr ⟨slot, hslot, pair, hpair, hwants, rfl⟩

theorem fan_out_nodup : (r.fan_out_scoped community_id event).Nodup := by
  unfold fan_out_scoped
  refine List.foldlRecOn _ _ List.nodup_nil fun results hresults slot _ => ?_
  refine List.foldlRecOn _ _ hresults fun results hresults pair _ => ?_
  unfold push_match
  split
  · exact nodup_push_new hresults pair
  · exact hresults

/-- It is enough to be listed under every slot one's filters and scope call for. -/
theorem delivered_of_listed {filters : List Filter} {scope : SubscriptionScope}
    (hentry : r.entry conn_id sub_id = some ⟨filters, community_id, scope⟩)
    (hlisted : ∀ slot ∈ slots filters community_id scope, (conn_id, sub_id) ∈ r.index.listed slot)
    (hscope : scope.matches_channel event.channel_id = true) (hfilters : filters_match filters event = true) :
    (conn_id, sub_id) ∈ r.fan_out_scoped community_id event := by
  obtain ⟨slot, hslot, hcandidate⟩ := @slot_of_match filters community_id scope event hscope hfilters
  exact mem_fan_out.2 ⟨wants_iff.2 ⟨filters, scope, hentry, hscope, hfilters⟩, slot, hcandidate, hlisted slot hslot⟩

end SubscriptionRegistry

/-! ## Any calls -/

inductive Call where
  | register_scoped (community_id : CommunityId) (conn_id : ConnId) (sub_id : SubId) (filters : List Filter) (channel_id : Option Uuid)
  | register_channels_scoped (community_id : CommunityId) (conn_id : ConnId) (sub_id : SubId) (filters : List Filter)
      (channel_ids : List Uuid)
  | remove_subscription (conn_id : ConnId) (sub_id : SubId)
  | remove_connection (conn_id : ConnId) (walk : List SubId)
  | remove_channel_subscriptions_scoped (community_id : CommunityId) (conn_id : ConnId) (channel_id : Uuid) (walk : List SubId)

namespace Call
open SubscriptionRegistry (Lists)

def run (r : SubscriptionRegistry) : Call → SubscriptionRegistry
  | .register_scoped community_id conn_id sub_id filters channel_id =>
    (r.register_scoped community_id conn_id sub_id filters channel_id).1
  | .register_channels_scoped community_id conn_id sub_id filters channel_ids =>
    (r.register_channels_scoped community_id conn_id sub_id filters channel_ids).1
  | .remove_subscription conn_id sub_id => (r.remove_subscription conn_id sub_id).1
  | .remove_connection conn_id walk => (r.remove_connection conn_id walk).1
  | .remove_channel_subscriptions_scoped community_id conn_id channel_id walk =>
    (r.remove_channel_subscriptions_scoped community_id conn_id channel_id walk).1

/-- A hash map is walked over as it is. -/
def Walks (r : SubscriptionRegistry) : Call → Prop
  | .remove_connection conn_id walk => Lists walk (r.subs conn_id)
  | .remove_channel_subscriptions_scoped _ conn_id _ walk => Lists walk (r.subs conn_id)
  | _ => True

/-- A call returns. -/
def Returns (r : SubscriptionRegistry) (call : Call) (r' : SubscriptionRegistry) : Prop := call.Walks r ∧ call.run r = r'

end Call

namespace SubscriptionRegistry

theorem new_indexed : new.Indexed := by
  refine ⟨fun slot conn sub => ?_, Map.tidy_empty⟩
  simp [new, entry]

theorem Indexed.returns {r r' : SubscriptionRegistry} {call : Call} (h : r.Indexed) (hcall : Call.Returns r call r') : r'.Indexed := by
  obtain ⟨hwalks, rfl⟩ := hcall
  cases call with
  | register_scoped community_id conn_id sub_id filters channel_id => exact register_indexed h community_id conn_id sub_id filters _
  | register_channels_scoped community_id conn_id sub_id filters channel_ids => exact register_indexed h community_id conn_id sub_id filters _
  | remove_subscription conn_id sub_id => exact (remove_subscription_indexed h conn_id sub_id).1
  | remove_connection conn_id walk => exact remove_connection_indexed h hwalks
  | remove_channel_subscriptions_scoped community_id conn_id channel_id walk =>
    exact remove_channel_subscriptions_indexed h community_id conn_id channel_id walk

/-- After any calls the indexes give what going through all the subscriptions would, and with the last subscription the last key of
every index is gone. -/
theorem fan_out_is_full_scan {calls : List Call} {r : SubscriptionRegistry} (hrun : Run Call.Returns new calls r) :
    (∀ community_id event, (r.fan_out_scoped community_id event).Nodup ∧
      ∀ conn_id sub_id, (conn_id, sub_id) ∈ r.fan_out_scoped community_id event ↔ ∃ filters scope,
        r.entry conn_id sub_id = some ⟨filters, community_id, scope⟩ ∧ scope.matches_channel event.channel_id = true ∧
          filters_match filters event = true) ∧
    ((∀ conn_id sub_id, r.entry conn_id sub_id = none) → ∀ slot, r.index slot = none) := by
  have h : r.Indexed := hrun.inv (fun _ _ _ _ h hcall => h.returns hcall) new_indexed
  refine ⟨fun community_id event => ⟨fan_out_nodup, fun conn_id sub_id => ⟨fun hmem => ?_, ?_⟩⟩, fun hnone slot => ?_⟩
  · exact wants_iff.1 (mem_fan_out.1 hmem).1
  · rintro ⟨filters, scope, hentry, hscope, hfilters⟩
    exact delivered_of_listed hentry (fun slot hslot => (h.exact slot conn_id sub_id).2 ⟨_, hentry, hslot⟩) hscope hfilters
  · refine h.tidy.eq_none (List.eq_nil_iff_forall_not_mem.2 ?_)
    rintro ⟨conn_id, sub_id⟩ hmem
    obtain ⟨e, he, -⟩ := (h.exact slot conn_id sub_id).1 hmem
    rw [hnone] at he
    cases he

/-- Messages in two channels, one of them given up, and a global subscription of another connection that is closed. -/
def few_calls : List Call :=
  [.register_channels_scoped 1 10 "feed" [{ kinds := some [9], generic_tags := [('p', ["alice"])] }] [5, 6, 5],
    .register_scoped 1 11 "all" [{}] none, .remove_channel_subscriptions_scoped 1 10 5 ["feed"], .remove_connection 11 ["all"]]

theorem lists_only (sub_id : SubId) (e : SubEntry) : Lists [sub_id] (some (Map.empty.insert sub_id e)) := by
  refine ⟨List.nodup_cons.2 ⟨List.not_mem_nil, List.nodup_nil⟩, fun sub => ?_⟩
  rw [Option.bind_some, Map.insert_apply]
  split
  next h => simp [h]
  next h => simp [h]

/-- A message to `alice` in a channel. -/
def message (channel_id : Uuid) : StoredEvent := ⟨⟨"aa", "bob", 1700000000, 9, [⟨"p", some "alice"⟩]⟩, some channel_id⟩

theorem fan_out_is_full_scan_few_calls : ∃ r, Run Call.Returns new few_calls r ∧
    (10, "feed") ∈ r.fan_out_scoped 1 (message 6) ∧ (10, "feed") ∉ r.fan_out_scoped 1 (message 5) := by
  have hrun : Run Call.Returns new few_calls _ :=
    .cons ⟨trivial, rfl⟩ (.cons ⟨trivial, rfl⟩ (.cons ⟨lists_only "feed" _, rfl⟩ (.single ⟨lists_only "all" _, rfl⟩)))
  have hscan := (fan_out_is_full_scan hrun).1 1
  refine ⟨_, hrun, ((hscan (message 6)).2 10 "feed").2 ⟨_, _, rfl, by decide, by decide⟩, fun hmem => ?_⟩
  obtain ⟨filters, scope, hentry, hscope, -⟩ := ((hscan (message 5)).2 10 "feed").1 hmem
  cases hentry
  exact absurd hscope (by decide)

end SubscriptionRegistry
end Ambush.Relay
