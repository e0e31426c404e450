import Ambush.Relay.FanOut
/-!
# Calls of different connections at once

A call is a series of steps on the maps, and between two of them the steps of other
connections may come. Emptying the list of a slot and deleting its key are two such steps: a
subscription listed in between is deleted with the key. If no key is deleted while it lists
somebody, every subscription that is there when all calls have returned is found.
-/
open Lib

namespace Ambush.Relay

/-! ## Steps on the maps -/

/-- Each constructor is one call of a map. -/
inductive Op where
  | take (sub_id : SubId)
  | insert (sub_id : SubId) (e : SubEntry)
  | push (slot : Slot) (sub_id : SubId)
  | retain (slot : Slot) (sub_id : SubId)
  | delete (slot : Slot)
  | take_all (walk : List SubId)
  | find (community_id : CommunityId) (channel_id : Uuid) (walk : List SubId)
  | shrink (community_id : CommunityId) (channel_id : Uuid) (sub_id : SubId)
  | drop (sub_id : SubId)

/-- The entries of a subscription go from each of these slots. -/
def unlist (slots : List Slot) (sub_id : SubId) : List Op := slots.map (.retain · sub_id)

namespace SubscriptionRegistry

/-- A step of a connection, and the steps it makes necessary. -/
def step (r : SubscriptionRegistry) (conn_id : ConnId) : Op → SubscriptionRegistry × List Op
  | .take sub_id =>
    match r.subs conn_id with
    | none => (r, [])
    | some conn_subs =>
      match conn_subs sub_id with
      | none => (r, [])
      | some e => ({ r with subs := r.subs.insert conn_id (conn_subs.remove sub_id) }, unlist e.slots sub_id)
  | .insert sub_id e => ({ r with subs := r.subs.insert conn_id (((r.subs conn_id).getD .empty).insert sub_id e) }, [])
  | .push slot sub_id => ({ r with index := r.index.push slot (conn_id, sub_id) }, [])
  | .retain slot sub_id =>
    match r.index slot with
    | none => (r, [])
    | some entries =>
      let entries := entries.filter (fun (cid, sid) => !(cid = conn_id && sid = sub_id))
      ({ r with index := r.index.insert slot entries }, if entries.isEmpty then [.delete slot] else [])
  | .delete slot => ({ r with index := r.index.remove slot }, [])
  | .take_all walk =>
    match r.subs conn_id with
    | none => (r, [])
    | some conn_subs =>
      let entries := walk.filterMap (fun sub_id => (conn_subs sub_id).map (sub_id, ·))
      ({ r with subs := r.subs.remove conn_id }, entries.flatMap (fun (sub_id, e) => unlist e.slots sub_id))
  | .find community_id channel_id walk =>
    let sub_ids := walk.filter (fun sub_id =>
      (r.entry conn_id sub_id).any (fun e => e.community_id = community_id && e.scope.channel_ids.contains channel_id))
    (r, sub_ids.map (.shrink community_id channel_id))
  | .shrink community_id channel_id sub_id =>
    match r.subs conn_id with
    | none => (r, [])
    | some conn_subs =>
      match conn_subs sub_id with
      | none => (r, [])
      | some e =>
        match e.scope with
        | .Global => (r, [])
        | .Channels channel_ids =>
          let channel_ids := channel_ids.filter (· ≠ channel_id)
          ({ r with subs := r.subs.insert conn_id (conn_subs.insert sub_id { e with scope := .Channels channel_ids }) },
            unlist (slots e.filters community_id (.Channels [channel_id])) sub_id ++ if channel_ids.isEmpty then [.drop sub_id] else [])
  | .drop sub_id => ({ r with subs := r.subs.insert conn_id (((r.subs conn_id).getD .empty).remove sub_id) }, [])

end SubscriptionRegistry

def register_ops (sub_id : SubId) (e : SubEntry) : List Op := .take sub_id :: .insert sub_id e :: e.slots.map (.push · sub_id)

/-- The connection of a call. -/
def Call.conn_id : Call → ConnId
  | .register_scoped _ conn_id .. | .register_channels_scoped _ conn_id .. | .remove_subscription conn_id _
  | .remove_connection conn_id _ | .remove_channel_subscriptions_scoped _ conn_id .. => conn_id

/-- The steps a call begins with. -/
def Call.ops : Call → List Op
  | .register_scoped community_id _ sub_id filters channel_id =>
    register_ops sub_id ⟨filters, community_id, (channel_id.map (fun channel_id => SubscriptionScope.Channels [channel_id])).getD .Global⟩
  | .register_channels_scoped community_id _ sub_id filters channel_ids => register_ops sub_id ⟨filters, community_id, .Channels channel_ids⟩
  | .remove_subscription _ sub_id => [.take sub_id]
  | .remove_connection _ walk => [.take_all walk]
  | .remove_channel_subscriptions_scoped community_id _ channel_id walk => [.find community_id channel_id walk]

/-! ## A call by itself -/

/-- The steps of one connection, with none of another in between. -/
inductive Alone (conn_id : ConnId) : SubscriptionRegistry → List Op → SubscriptionRegistry → Prop
  | nil {r : SubscriptionRegistry} : Alone conn_id r [] r
  | cons {r r' : SubscriptionRegistry} {op : Op} {ops : List Op} :
    Alone conn_id (r.step conn_id op).1 ((r.step conn_id op).2 ++ ops) r' → Alone conn_id r (op :: ops) r'

namespace Alone
open SubscriptionRegistry

variable {conn_id : ConnId} {r r' : SubscriptionRegistry} {ops : List Op}

/-- Emptying a list and deleting its key is what `remove_from_index` does at a slot. -/
theorem retain {slot : Slot} {sub_id : SubId} (h : Alone conn_id { r with index := r.index.retain slot conn_id sub_id } ops r') :
    Alone conn_id r (.retain slot sub_id :: ops) r' := by
  refine .cons ?_
  unfold Index.retain Map.retain_listed Map.store at h
  cases hslot : r.index slot with
  | none =>
    rw [hslot] at h
    simp only [step, hslot]
    exact h
  | some entries =>
    rw [hslot] at h
    dsimp only at h
    simp only [step, hslot]
    split
    next hempty =>
      rw [if_pos hempty] at h
      refine .cons ?_
      simp only [step, Map.remove_insert]
      exact h
    next hempty =>
      rw [if_neg hempty] at h
      exact h

theorem unlisted {sub_id : SubId} {filters : List Filter} {community_id : CommunityId} {scope : SubscriptionScope}
    (h : Alone conn_id { r with index := remove_from_index r.index conn_id sub_id filters community_id scope } ops r') :
    Alone conn_id r (unlist (slots filters community_id scope) sub_id ++ ops) r' := by
  rw [remove_from_index_eq] at h
  generalize slots filters community_id scope = ks at h
  induction ks generalizing r with
  | nil => exact h
  | cons k ks ih => exact .retain (ih h)

theorem listed {sub_id : SubId} {filters : List Filter} {community_id : CommunityId} {scope : SubscriptionScope}
    (h : Alone conn_id { r with index := add_to_index r.index conn_id sub_id filters community_id scope } ops r') :
    Alone conn_id r ((slots filters community_id scope).map (.push · sub_id) ++ ops) r' := by
  rw [add_to_index_eq] at h
  generalize slots filters community_id scope = ks at h
  induction ks generalizing r with
  | nil => exact h
  | cons k ks ih => exact .cons (ih h)

theorem take (sub_id : SubId) (h : Alone conn_id (r.remove_subscription conn_id sub_id).1 ops r') : Alone conn_id r (.take sub_id :: ops) r' := by
  refine .cons ?_
  unfold remove_subscription at h
  cases hsubs : r.subs conn_id with
  | none =>
    rw [hsubs] at h
    simp only [step, hsubs]
    exact h
  | some conn_subs =>
    rw [hsubs] at h
    dsimp only at h
    cases hsub : conn_subs sub_id with
    | none =>
      rw [hsub] at h
      simp only [step, hsubs, hsub]
      exact h
    | some e =>
      rw [hsub] at h
      simp only [step, hsubs, hsub]
      exact .unlisted h

theorem register (community_id : CommunityId) (sub_id : SubId) (filters : List Filter) (scope : SubscriptionScope) :
    Alone conn_id r (register_ops sub_id ⟨filters, community_id, scope⟩)
      (r.register_with_scope community_id conn_id sub_id filters scope).1 := by
  refine take sub_id (.cons ?_)
  have hlisted := @listed conn_id (((r.remove_subscription conn_id sub_id).1.step conn_id (.insert sub_id ⟨filters, community_id, scope⟩)).1)
    (r.register_with_scope community_id conn_id sub_id filters scope).1 [] sub_id filters community_id scope .nil
  rw [List.append_nil] at hlisted
  exact hlisted

theorem take_all (walk : List SubId) : Alone conn_id r [.take_all walk] (r.remove_connection conn_id walk).1 := by
  refine .cons ?_
  unfold remove_connection
  cases hsubs : r.subs conn_id with
  | none =>
    simp only [step, hsubs]
    exact .nil
  | some conn_subs =>
    simp only [step, hsubs]
    generalize walk.filterMap _ = entries
    generalize r.subs.remove conn_id = subs
    generalize r.index = index
    rw [List.append_nil]
    induction entries generalizing index with
    | nil => exact .nil
    | cons p entries ih => exact .unlisted (ih _)

theorem shrink {community_id : CommunityId} {channel_id : Uuid} {sub_id : SubId}
    (h : Alone conn_id (r.remove_channel community_id conn_id channel_id sub_id).1 ops r') :
    Alone conn_id r (.shrink community_id channel_id sub_id :: ops) r' := by
  refine .cons ?_
  unfold remove_channel at h
  cases hsubs : r.subs conn_id with
  | none =>
    rw [hsubs] at h
    simp only [step, hsubs]
    exact h
  | some conn_subs =>
    rw [hsubs] at h
    dsimp only at h
    cases hsub : conn_subs sub_id with
    | none =>
      rw [hsub] at h
      simp only [step, hsubs, hsub]
      exact h
    | some e =>
      rw [hsub] at h
      dsimp only at h
      cases hscope : e.scope with
      | Global =>
        rw [hscope] at h
        simp only [step, hsubs, hsub, hscope]
        exact h
      | Channels channel_ids =>
        rw [hscope] at h
        simp only [step, hsubs, hsub, hscope, List.append_assoc]
        dsimp only at h
        refine .unlisted ?_
        split
        next hempty =>
          rw [if_pos hempty] at h
          refine .cons ?_
          simp only [step, Map.insert_self, Option.getD_some]
          have hsubs' : ∀ l : Map SubId SubEntry, (r.subs.insert conn_id l).insert conn_id (l.remove sub_id) =
              r.subs.insert conn_id (l.remove sub_id) := by
            intro l
            funext conn
            simp only [Map.insert_apply]
            split <;> rfl
          rw [hsubs']
          exact h
        next hempty =>
          rw [if_neg hempty] at h
          exact h

theorem shrink_all (community_id : CommunityId) (channel_id : Uuid) (sub_ids : List SubId) (updates : List ChannelSubscriptionUpdate) :
    Alone conn_id r (sub_ids.map (.shrink community_id channel_id))
      (sub_ids.foldl (fun (s : SubscriptionRegistry × List ChannelSubscriptionUpdate) sub_id =>
        ((s.1.remove_channel community_id conn_id channel_id sub_id).1,
          s.2 ++ (s.1.remove_channel community_id conn_id channel_id sub_id).2.toList)) (r, updates)).1 := by
  induction sub_ids generalizing r updates with
  | nil => exact .nil
  | cons sub_id sub_ids ih => exact .shrink (ih _)

/-- Run by itself, a call does what its function does. -/
theorem call (r : SubscriptionRegistry) (call : Call) : Alone call.conn_id r call.ops (call.run r) := by
  cases call with
  | register_scoped community_id conn_id sub_id filters channel_id => exact register community_id sub_id filters _
  | register_channels_scoped community_id conn_id sub_id filters channel_ids => exact register community_id sub_id filters _
  | remove_subscription conn_id sub_id => exact take sub_id .nil
  | remove_connection conn_id walk => exact take_all walk
  | remove_channel_subscriptions_scoped community_id conn_id channel_id walk =>
    refine .cons ?_
    simp only [step, List.append_nil]
    exact shrink_all community_id channel_id _ []

end Alone

/-! ## Any interleaving -/

/-- The steps that each connection has before it. -/
structure Calls where
  registry : SubscriptionRegistry
  pending : ConnId → List Op

/-- A connection begins a call, or takes the next step of the one it is in. -/
inductive Act where
  | begin (call : Call)
  | next (conn_id : ConnId)

def Act.conn_id : Act → ConnId
  | .begin call => call.conn_id
  | .next conn_id => conn_id

namespace Calls

def start : Calls := ⟨.new, fun _ => []⟩

def act (s : Calls) : Act → Option Calls
  | .begin call =>
    if (s.pending call.conn_id).isEmpty then some { s with pending := Function.update s.pending call.conn_id call.ops } else none
  | .next conn_id =>
    match s.pending conn_id with
    | [] => none
    | op :: ops =>
      some ⟨(s.registry.step conn_id op).1, Function.update s.pending conn_id ((s.registry.step conn_id op).2 ++ ops)⟩

/-- A key is deleted only while nobody is listed under it. -/
def DeletesEmpty (s : Calls) : Act → Prop
  | .begin _ => True
  | .next conn_id => ∀ slot ops, s.pending conn_id = .delete slot :: ops → s.registry.index.listed slot = []

def Acts (s : Calls) (a : Act) (s' : Calls) : Prop := s.act a = some s'

def ActsOnEmpty (s : Calls) (a : Act) (s' : Calls) : Prop := s.DeletesEmpty a ∧ s.act a = some s'

theorem runs_of_alone {conn_id : ConnId} {r r' : SubscriptionRegistry} {ops : List Op} (h : Alone conn_id r ops r')
    (pending : ConnId → List Op) : ∃ acts, Run Acts ⟨r, Function.update pending conn_id ops⟩ acts ⟨r', Function.update pending conn_id []⟩ := by
  induction h with
  | nil => exact ⟨[], .nil⟩
  | @cons r r' op ops _ ih =>
    obtain ⟨acts, hruns⟩ := ih
    refine ⟨.next conn_id :: acts, .cons ?_ hruns⟩
    simp [Acts, act]

end Calls

/-! ## What a connection keeps -/

/-- The steps that list nobody and store nothing new. -/
def Op.clears : Op → Bool
  | .insert .. | .push .. => false
  | _ => true

/-- The steps before a connection: first all that clear, then an entry with its slots, if the call is to register one. -/
inductive Shape : List Op → Prop
  | pushes (sub_id : SubId) (ks : List Slot) : Shape (ks.map (.push · sub_id))
  | insert (sub_id : SubId) (e : SubEntry) : Shape (.insert sub_id e :: e.slots.map (.push · sub_id))
  | cons {op : Op} {ops : List Op} : op.clears = true → Shape ops → Shape (op :: ops)

theorem Shape.append {ops next : List Op} (h : Shape ops) (hnext : ∀ op ∈ next, op.clears = true) : Shape (next ++ ops) := by
  induction next with
  | nil => exact h
  | cons op next ih =>
    rw [List.forall_mem_cons] at hnext
    exact .cons hnext.1 (ih hnext.2)

namespace SubscriptionRegistry

variable {r r' : SubscriptionRegistry} {conn_id : ConnId} {op : Op} {ops next : List Op}

/-- Every subscription of the connection is under each of its slots or about to be, and not about to go from there. -/
structure Kept (r : SubscriptionRegistry) (conn_id : ConnId) (ops : List Op) : Prop where
  listed : ∀ sub_id e slot, r.entry conn_id sub_id = some e → slot ∈ e.slots →
    (conn_id, sub_id) ∈ r.index.listed slot ∨ .push slot sub_id ∈ ops
  lasting : ∀ sub_id e slot, r.entry conn_id sub_id = some e → slot ∈ e.slots → .retain slot sub_id ∉ ops
  shape : Shape ops

theorem mem_unlist {ks : List Slot} {sub_id : SubId} {op : Op} : op ∈ unlist ks sub_id ↔ ∃ k ∈ ks, op = .retain k sub_id := by
  simp [unlist, eq_comm]

/-- A step that clears: no entry is new or has a slot it had not, none is taken from a slot it has, and none will be. -/
theorem Kept.cleared (h : Kept r conn_id (op :: ops)) (hop : op.clears = true) (hnext : ∀ op ∈ next, op.clears = true)
    (hentry : ∀ sub_id e', r'.entry conn_id sub_id = some e' → (∃ e, r.entry conn_id sub_id = some e ∧ ∀ slot ∈ e'.slots, slot ∈ e.slots) ∧
      ∀ slot ∈ e'.slots, ((conn_id, sub_id) ∈ r.index.listed slot → (conn_id, sub_id) ∈ r'.index.listed slot) ∧
        .retain slot sub_id ∉ next) : Kept r' conn_id (next ++ ops) := by
  refine ⟨fun sub_id e' slot he' hslot => ?_, fun sub_id e' slot he' hslot hmem => ?_, ?_⟩
  · obtain ⟨⟨e, he, hslots⟩, hkept⟩ := hentry sub_id e' he'
    refine (h.listed sub_id e slot he (hslots slot hslot)).imp (hkept slot hslot).1 fun hpush => List.mem_append_right _ ?_
    rcases List.mem_cons.1 hpush with rfl | hpush
    · cases hop
    · exact hpush
  · obtain ⟨⟨e, he, hslots⟩, hkept⟩ := hentry sub_id e' he'
    rcases List.mem_append.1 hmem with hmem | hmem
    · exact (hkept slot hslot).2 hmem
    · exact h.lasting sub_id e slot he (hslots slot hslot) (List.mem_cons_of_mem _ hmem)
  · refine Shape.append ?_ hnext
    generalize hshape : op :: ops = l at h
    cases h.shape with
    | pushes sub_id ks =>
      cases ks with
      | nil => cases hshape
      | cons k ks =>
        cases hshape
        cases hop
    | insert sub_id e =>
      cases hshape
      cases hop
    | cons _ hops =>
      cases hshape
      exact hops

/-- Nothing is changed by the step. -/
theorem Kept.passed (h : Kept r conn_id (op :: ops)) (hop : op.clears = true) : Kept r conn_id ([] ++ ops) := by
  refine h.cleared hop (fun _ hmem => by cases hmem) fun sub_id e he => ⟨⟨e, he, fun _ hslot => hslot⟩, fun slot hslot => ⟨id, ?_⟩⟩
  exact fun hmem => by cases hmem

theorem Kept.pushed {slot : Slot} {sub_id : SubId} (h : Kept r conn_id (.push slot sub_id :: ops)) :
    Kept { r with index := r.index.push slot (conn_id, sub_id) } conn_id ops := by
  refine ⟨fun sub e k he hk => ?_, fun sub e k he hk hmem => h.lasting sub e k he hk (List.mem_cons_of_mem _ hmem), ?_⟩
  · rcases h.listed sub e k he hk with hlisted | hpush
    · exact .inl (mem_push.2 (.inl hlisted))
    · rcases List.mem_cons.1 hpush with heq | hpush
      · cases heq
        exact .inl (mem_push.2 (.inr ⟨rfl, rfl⟩))
      · exact .inr hpush
  · generalize hshape : Op.push slot sub_id :: ops = l at h
    cases h.shape with
    | pushes sub ks =>
      cases ks with
      | nil => cases hshape
      | cons k ks =>
        cases hshape
        exact .pushes _ ks
    | insert sub e => cases hshape
    | cons hclears _ =>
      cases hshape
      cases hclears

/-- What a missing connection has, the empty map has. -/
theorem getD_empty_apply (sub : SubId) : ((r.subs conn_id).getD .empty) sub = r.entry conn_id sub := by
  unfold entry
  cases r.subs conn_id <;> rfl

theorem Kept.inserted {sub_id : SubId} {e : SubEntry} (h : Kept r conn_id (.insert sub_id e :: ops)) :
    Kept { r with subs := r.subs.insert conn_id (((r.subs conn_id).getD .empty).insert sub_id e) } conn_id ops := by
  have hops : ops = e.slots.map (.push · sub_id) := by
    generalize hshape : Op.insert sub_id e :: ops = l at h
    cases h.shape with
    | pushes sub ks =>
      cases ks with
      | nil => cases hshape
      | cons k ks => cases hshape
    | insert sub e =>
      cases hshape
      rfl
    | cons hclears _ =>
      cases hshape
      cases hclears
  have hentry : ∀ sub e', entry { r with subs := r.subs.insert conn_id (((r.subs conn_id).getD .empty).insert sub_id e) } conn_id sub =
      some e' → sub = sub_id ∧ e' = e ∨ r.entry conn_id sub = some e' := by
    intro sub e' he'
    rw [entry_stored, if_pos rfl, Map.insert_apply] at he'
    split at he'
    next hsub => exact .inl ⟨hsub, (Option.some.inj he').symm⟩
    next =>
      rw [getD_empty_apply] at he'
      exact .inr he'
  refine ⟨fun sub e' slot he' hslot => ?_, fun sub e' slot he' hslot hmem => ?_, hops ▸ .pushes sub_id e.slots⟩
  · rcases hentry sub e' he' with ⟨rfl, rfl⟩ | he
    · exact .inr (hops ▸ List.mem_map_of_mem hslot)
    · refine (h.listed sub e' slot he hslot).imp_right fun hpush => ?_
      rcases List.mem_cons.1 hpush with heq | hpush
      · cases heq
      · exact hpush
  · rw [hops] at hmem
    obtain ⟨k, -, heq⟩ := List.mem_map.1 hmem
    cases heq

theorem unlist_clears {ks : List Slot} {sub_id : SubId} : ∀ op ∈ unlist ks sub_id, op.clears = true := by
  intro op hop
  obtain ⟨k, -, rfl⟩ := mem_unlist.1 hop
  rfl

/-- The steps of a connection after an operation. -/
def KeptAfter (r : SubscriptionRegistry) (conn_id : ConnId) (op : Op) (ops : List Op) : Prop :=
  Kept (r.step conn_id op).1 conn_id ((r.step conn_id op).2 ++ ops)

theorem Kept.taken {sub_id : SubId} (h : Kept r conn_id (.take sub_id :: ops)) : KeptAfter r conn_id (.take sub_id) ops := by
  unfold KeptAfter
  cases hsubs : r.subs conn_id with
  | none =>
    simp only [step, hsubs]
    exact h.passed rfl
  | some conn_subs =>
    cases hsub : conn_subs sub_id with
    | none =>
      simp only [step, hsubs, hsub]
      exact h.passed rfl
    | some e =>
      simp only [step, hsubs, hsub]
      refine h.cleared rfl unlist_clears fun sub e' he' => ?_
      rw [entry_stored, if_pos rfl, Map.remove_apply] at he'
      split at he'
      · cases he'
      next hne =>
        refine ⟨⟨e', entry_eq_some.2 ⟨conn_subs, hsubs, he'⟩, fun _ hslot => hslot⟩, fun slot _ => ⟨id, fun hmem => ?_⟩⟩
        obtain ⟨k, -, heq⟩ := mem_unlist.1 hmem
        cases heq
        exact hne rfl

theorem Kept.retained {slot : Slot} {sub_id : SubId} (h : Kept r conn_id (.retain slot sub_id :: ops)) :
    KeptAfter r conn_id (.retain slot sub_id) ops := by
  unfold KeptAfter
  cases hslot : r.index slot with
  | none =>
    simp only [step, hslot]
    exact h.passed rfl
  | some entries =>
    simp only [step, hslot]
    refine h.cleared rfl (fun op hop => ?_) fun sub e he => ⟨⟨e, he, fun _ hk => hk⟩, fun k hk => ⟨fun hlisted => ?_, fun hmem => ?_⟩⟩
    · split at hop
      · rw [List.mem_singleton.1 hop]
        rfl
      · cases hop
    · rw [Map.listed_insert]
      split
      next heq =>
        -- a subscription that has this slot is not the one that is taken from it
        have hne : sub ≠ sub_id := fun hsame => h.lasting sub e k he hk (hsame ▸ heq ▸ List.mem_cons_self)
        rw [heq, Map.listed, hslot, Option.getD_some] at hlisted
        exact List.mem_filter.2 ⟨hlisted, by simp [hne]⟩
      next => exact hlisted
    · split at hmem
      · cases List.mem_singleton.1 hmem
      · cases hmem

theorem Kept.deleted {slot : Slot} (h : Kept r conn_id (.delete slot :: ops)) (hempty : r.index.listed slot = []) :
    KeptAfter r conn_id (.delete slot) ops := by
  refine h.cleared rfl (fun _ hmem => by cases hmem) fun sub e he => ⟨⟨e, he, fun _ hk => hk⟩, fun k _ => ⟨fun hlisted => ?_, ?_⟩⟩
  · change _ ∈ (r.index.remove slot).listed k
    rw [Map.listed_remove]
    split
    next heq =>
      rw [heq, hempty] at hlisted
      cases hlisted
    next => exact hlisted
  · exact fun hmem => by cases hmem

theorem Kept.taken_all {walk : List SubId} (h : Kept r conn_id (.take_all walk :: ops)) : KeptAfter r conn_id (.take_all walk) ops := by
  unfold KeptAfter
  cases hsubs : r.subs conn_id with
  | none =>
    simp only [step, hsubs]
    exact h.passed rfl
  | some conn_subs =>
    simp only [step, hsubs]
    refine h.cleared rfl (fun op hop => ?_) fun sub e he => ?_
    · obtain ⟨p, -, hop⟩ := List.mem_flatMap.1 hop
      exact unlist_clears op hop
    · simp [entry] at he

theorem Kept.found {community_id : CommunityId} {channel_id : Uuid} {walk : List SubId}
    (h : Kept r conn_id (.find community_id channel_id walk :: ops)) : KeptAfter r conn_id (.find community_id channel_id walk) ops := by
  refine h.cleared rfl (fun op hop => ?_) fun sub e he => ⟨⟨e, he, fun _ hk => hk⟩, fun k _ => ⟨id, fun hmem => ?_⟩⟩
  · obtain ⟨sub, -, rfl⟩ := List.mem_map.1 hop
    rfl
  · obtain ⟨sub, -, heq⟩ := List.mem_map.1 hmem
    cases heq

/-- The steps after a channel is taken from a scope: the slots they take the subscription from are those of the channel. -/
def shrink_ops (e : SubEntry) (community_id : CommunityId) (channel_id : Uuid) (sub_id : SubId) (removed : Bool) : List Op :=
  unlist (slots e.filters community_id (.Channels [channel_id])) sub_id ++ if removed then [.drop sub_id] else []

theorem mem_shrink_ops {e : SubEntry} {community_id : CommunityId} {channel_id : Uuid} {sub_id : SubId} {removed : Bool}
    (h : op ∈ shrink_ops e community_id channel_id sub_id removed) :
    op = .drop sub_id ∨ ∃ k ∈ channel_slots e.filters community_id channel_id, op = .retain k sub_id := by
  rcases List.mem_append.1 h with h | h
  · obtain ⟨k, hk, rfl⟩ := mem_unlist.1 h
    refine .inr ⟨k, ?_, rfl⟩
    simpa [slots] using hk
  · cases removed with
    | false => cases h
    | true => exact .inl (List.mem_singleton.1 h)

theorem Kept.shrunk {community_id : CommunityId} {channel_id : Uuid} {sub_id : SubId}
    (h : Kept r conn_id (.shrink community_id channel_id sub_id :: ops)) :
    KeptAfter r conn_id (.shrink community_id channel_id sub_id) ops := by
  unfold KeptAfter
  cases hsubs : r.subs conn_id with
  | none =>
    simp only [step, hsubs]
    exact h.passed rfl
  | some conn_subs =>
    cases hsub : conn_subs sub_id with
    | none =>
      simp only [step, hsubs, hsub]
      exact h.passed rfl
    | some e =>
      cases hscope : e.scope with
      | Global =>
        simp only [step, hsubs, hsub, hscope]
        exact h.passed rfl
      | Channels channel_ids =>
        simp only [step, hsubs, hsub, hscope]
        change Kept _ conn_id (shrink_ops e community_id channel_id sub_id _ ++ ops)
        refine h.cleared rfl (fun op hop => ?_) fun sub e' he' => ?_
        · rcases mem_shrink_ops hop with rfl | ⟨k, -, rfl⟩ <;> rfl
        rw [entry_stored, if_pos rfl, Map.insert_apply] at he'
        split at he'
        next heq =>
          cases he'
          refine ⟨⟨e, entry_eq_some.2 ⟨conn_subs, hsubs, heq ▸ hsub⟩, fun slot hslot => ?_⟩, fun slot hslot => ⟨id, fun hmem => ?_⟩⟩
          · rw [SubEntry.slots, hscope]
            exact (slots_without_channel.1 hslot).1
          · -- a slot of one channel is none of another, whatever the communities
            obtain ⟨ch_id, hch, hslot⟩ := List.mem_flatMap.1 hslot
            rcases mem_shrink_ops hmem with heq | ⟨k, hk, heq⟩
            · cases heq
            · cases heq
              exact absurd (channel_slots_disjoint hk hslot) (of_decide_eq_true (List.mem_filter.1 hch).2)
        next hne =>
          refine ⟨⟨e', entry_eq_some.2 ⟨conn_subs, hsubs, he'⟩, fun _ hslot => hslot⟩, fun slot _ => ⟨id, fun hmem => ?_⟩⟩
          rcases mem_shrink_ops hmem with heq | ⟨k, -, heq⟩
          · cases heq
          · cases heq
            exact hne rfl

theorem Kept.dropped {sub_id : SubId} (h : Kept r conn_id (.drop sub_id :: ops)) : KeptAfter r conn_id (.drop sub_id) ops := by
  refine h.cleared rfl (fun _ hmem => by cases hmem) fun sub e' he' => ?_
  change entry ⟨r.subs.insert conn_id (((r.subs conn_id).getD .empty).remove sub_id), r.index⟩ conn_id sub = some e' at he'
  rw [entry_stored, if_pos rfl, Map.remove_apply] at he'
  split at he'
  · cases he'
  · rw [getD_empty_apply] at he'
    exact ⟨⟨e', he', fun _ hslot => hslot⟩, fun slot _ => ⟨id, fun hmem => by cases hmem⟩⟩

/-- The next step of the connection itself. -/
theorem Kept.step (h : Kept r conn_id (op :: ops)) (hdelete : ∀ slot, op = .delete slot → r.index.listed slot = []) :
    KeptAfter r conn_id op ops := by
  cases op with
  | take sub_id => exact h.taken
  | insert sub_id e => exact h.inserted
  | push slot sub_id => exact h.pushed
  | retain slot sub_id => exact h.retained
  | delete slot => exact h.deleted (hdelete slot rfl)
  | take_all walk => exact h.taken_all
  | find community_id channel_id walk => exact h.found
  | shrink community_id channel_id sub_id => exact h.shrunk
  | drop sub_id => exact h.dropped

/-- A step of another connection leaves the entries of this one, and takes it from no slot. -/
theorem step_elsewhere (conn : ConnId) (hconn : conn_id ≠ conn) (hdelete : ∀ slot, op = .delete slot → r.index.listed slot = []) :
    (∀ sub, (r.step conn op).1.entry conn_id sub = r.entry conn_id sub) ∧
      ∀ slot sub, (conn_id, sub) ∈ r.index.listed slot → (conn_id, sub) ∈ (r.step conn op).1.index.listed slot := by
  have hentry : ∀ l sub, entry { r with subs := r.subs.insert conn l } conn_id sub = r.entry conn_id sub := by
    intro l sub
    rw [entry_stored, if_neg hconn]
  cases op with
  | take sub_id =>
    cases hsubs : r.subs conn with
    | none => simp [step, hsubs]
    | some conn_subs =>
      cases hsub : conn_subs sub_id with
      | none => simp [step, hsubs, hsub]
      | some e =>
        simp only [step, hsubs, hsub]
        exact ⟨hentry _, fun _ _ => id⟩
  | insert sub_id e => exact ⟨hentry _, fun _ _ => id⟩
  | push slot sub_id => exact ⟨fun _ => rfl, fun _ _ hmem => mem_push.2 (.inl hmem)⟩
  | retain slot sub_id =>
    cases hslot : r.index slot with
    | none => simp [step, hslot]
    | some entries =>
      simp only [step, hslot]
      refine ⟨fun _ => rfl, fun k sub hlisted => ?_⟩
      rw [Map.listed_insert]
      split
      next heq =>
        rw [heq, Map.listed, hslot, Option.getD_some] at hlisted
        exact List.mem_filter.2 ⟨hlisted, by simp [hconn]⟩
      next => exact hlisted
  | delete slot =>
    refine ⟨fun _ => rfl, fun k sub hlisted => ?_⟩
    change _ ∈ (r.index.remove slot).listed k
    rw [Map.listed_remove]
    split
    next heq =>
      rw [heq, hdelete slot rfl] at hlisted
      cases hlisted
    next => exact hlisted
  | take_all walk =>
    cases hsubs : r.subs conn with
    | none => simp [step, hsubs]
    | some conn_subs =>
      simp only [step, hsubs]
      refine ⟨fun sub => ?_, fun _ _ => id⟩
      unfold entry
      dsimp only
      rw [Map.remove_ne _ _ _ hconn]
  | find community_id channel_id walk => exact ⟨fun _ => rfl, fun _ _ => id⟩
  | shrink community_id channel_id sub_id =>
    cases hsubs : r.subs conn with
    | none => simp [step, hsubs]
    | some conn_subs =>
      cases hsub : conn_subs sub_id with
      | none => simp [step, hsubs, hsub]
      | some e =>
        cases hscope : e.scope with
        | Global => simp [step, hsubs, hsub, hscope]
        | Channels channel_ids =>
          simp only [step, hsubs, hsub, hscope]
          exact ⟨hentry _, fun _ _ => id⟩
  | drop sub_id => exact ⟨hentry _, fun _ _ => id⟩

/-- A call that begins. -/
theorem Kept.begin (h : Kept r conn_id []) (call : Call) : Kept r conn_id call.ops := by
  have hops : (∀ slot sub_id, .retain slot sub_id ∉ call.ops) ∧ Shape call.ops := by
    have hregister : ∀ sub e, (∀ slot sub_id, .retain slot sub_id ∉ register_ops sub e) ∧ Shape (register_ops sub e) :=
      fun sub e => ⟨fun slot sub_id hmem => by simp [register_ops] at hmem, .cons rfl (.insert sub e)⟩
    cases call with
    | register_scoped community_id conn sub filters channel_id => exact hregister sub _
    | register_channels_scoped community_id conn sub filters channel_ids => exact hregister sub _
    | _ => exact ⟨fun slot sub_id hmem => by simp [Call.ops] at hmem, .cons rfl (.pushes "" [])⟩
  refine ⟨fun sub_id e slot he hslot => ?_, fun sub_id e slot _ _ => hops.1 slot sub_id, hops.2⟩
  rcases h.listed sub_id e slot he hslot with hlisted | hpush
  · exact .inl hlisted
  · cases hpush

end SubscriptionRegistry

namespace Calls
open SubscriptionRegistry (Kept)

def AllKept (s : Calls) : Prop := ∀ conn_id, Kept s.registry conn_id (s.pending conn_id)

theorem start_kept : start.AllKept :=
  fun _ => ⟨fun _ _ _ he _ => (by cases he), fun _ _ _ he _ => (by cases he), .pushes "" []⟩

theorem AllKept.act {s s' : Calls} {a : Act} (h : s.AllKept) (hempty : s.DeletesEmpty a) (hact : s.act a = some s') : s'.AllKept := by
  intro conn
  cases a with
  | begin call =>
    unfold Calls.act at hact
    dsimp only at hact
    split at hact
    next hidle =>
      cases hact
      dsimp only
      by_cases hconn : conn = call.conn_id
      · subst hconn
        have hcall := h call.conn_id
        rw [List.isEmpty_iff.1 hidle] at hcall
        rw [Function.update_self]
        exact hcall.begin call
      · rw [Function.update_of_ne hconn]
        exact h conn
    next => cases hact
  | next conn_id =>
    unfold Calls.act at hact
    dsimp only at hact
    cases hpending : s.pending conn_id with
    | nil =>
      rw [hpending] at hact
      cases hact
    | cons op ops =>
      rw [hpending] at hact
      cases hact
      dsimp only
      have hdelete : ∀ slot, op = .delete slot → s.registry.index.listed slot = [] :=
        fun slot heq => hempty slot ops (heq ▸ hpending)
      by_cases hconn : conn = conn_id
      · subst hconn
        rw [Function.update_self]
        exact (hpending ▸ h conn).step hdelete
      · rw [Function.update_of_ne hconn]
        obtain ⟨hentry, hlisted⟩ := SubscriptionRegistry.step_elsewhere conn_id hconn hdelete
        refine ⟨fun sub e slot he hslot => ?_, fun sub e slot he hslot => ?_, (h conn).shape⟩
        · exact ((h conn).listed sub e slot (hentry sub ▸ he) hslot).imp_left (hlisted slot sub)
        · exact (h conn).lasting sub e slot (hentry sub ▸ he) hslot

/-- In every interleaving in which no key is deleted while it lists somebody, once all calls have returned every subscription is under
every slot its filters and its scope call for, and fan-out delivers to it. -/
theorem found_once_returned {acts : List Act} {s : Calls} (hrun : Run ActsOnEmpty start acts s) (hreturned : ∀ conn_id, s.pending conn_id = [])
    (conn_id : ConnId) (sub_id : SubId) (e : SubEntry) (he : s.registry.entry conn_id sub_id = some e) :
    (∀ slot ∈ e.slots, (conn_id, sub_id) ∈ s.registry.index.listed slot) ∧
      ∀ event, e.scope.matches_channel event.channel_id = true → filters_match e.filters event = true →
        (conn_id, sub_id) ∈ s.registry.fan_out_scoped e.community_id event := by
  have h : s.AllKept := hrun.inv (fun _ _ _ _ h hact => h.act hact.1 hact.2) start_kept
  have hlisted : ∀ slot ∈ e.slots, (conn_id, sub_id) ∈ s.registry.index.listed slot := by
    intro slot hslot
    rcases (h conn_id).listed sub_id e slot he hslot with hlisted | hpush
    · exact hlisted
    · rw [hreturned] at hpush
      cases hpush
  exact ⟨hlisted, fun event hscope hfilters => SubscriptionRegistry.delivered_of_listed he hlisted hscope hfilters⟩

/-! ## A subscription deleted with the key of another -/

/-- Two connections that subscribe to everything in the same channel. -/
def subscribe (conn_id : ConnId) : Call := .register_scoped 1 conn_id "sub" [{}] (some 5)

/-- The first has subscribed and now leaves. -/
def leaves : List Act :=
  .begin (subscribe 10) :: .next 10 :: .next 10 :: .next 10 :: .begin (.remove_subscription 10 "sub") :: .next 10 :: .next 10 :: []

/-- The second comes after the key is deleted. -/
def comes_after : List Act := leaves ++ [.next 10, .begin (subscribe 11), .next 11, .next 11, .next 11]

/-- The second comes while the list is empty and the key is still there. -/
def comes_between : List Act := leaves ++ [.begin (subscribe 11), .next 11, .next 11, .next 11, .next 10]

def anything : StoredEvent := ⟨⟨"aa", "bob", 1700000000, 9, []⟩, some 5⟩

/-- A connection that does nothing has nothing before it. -/
theorem pending_idle {acts : List Act} {s : Calls} (hrun : Run Acts start acts s) {conn_id : ConnId}
    (hidle : ∀ a ∈ acts, a.conn_id ≠ conn_id) : s.pending conn_id = [] := by
  refine hrun.inv (I := fun s => s.pending conn_id = []) (fun s a s' ha h hact => ?_) rfl
  have hne := (hidle a ha).symm
  unfold Acts Calls.act at hact
  cases a with
  | begin call =>
    dsimp only at hact
    split at hact
    · cases hact
      exact (Function.update_of_ne hne _ _).trans h
    · cases hact
  | next conn =>
    dsimp only at hact
    split at hact
    · cases hact
    · cases hact
      exact (Function.update_of_ne hne _ _).trans h

theorem all_returned {acts : List Act} {s : Calls} (hrun : Run Acts start acts s)
    (hacts : ∀ a ∈ acts, a.conn_id = 10 ∨ a.conn_id = 11) (h10 : s.pending 10 = []) (h11 : s.pending 11 = []) (conn_id : ConnId) :
    s.pending conn_id = [] := by
  by_cases hfirst : conn_id = 10
  · rw [hfirst, h10]
  · by_cases hsecond : conn_id = 11
    · rw [hsecond, h11]
    · refine pending_idle hrun fun a ha heq => ?_
      rcases hacts a ha with h | h
      · exact hfirst (heq.symm.trans h)
      · exact hsecond (heq.symm.trans h)

theorem found_once_returned_after : ∃ s, Run ActsOnEmpty start comes_after s ∧ (11, "sub") ∈ s.registry.fan_out_scoped 1 anything := by
  have hrun : Run ActsOnEmpty start comes_after _ :=
    .cons ⟨trivial, rfl⟩ (.cons ⟨fun _ _ h => (by cases h), rfl⟩ (.cons ⟨fun _ _ h => (by cases h), rfl⟩
      (.cons ⟨fun _ _ h => (by cases h), rfl⟩ (.cons ⟨trivial, rfl⟩ (.cons ⟨fun _ _ h => (by cases h), rfl⟩
        (.cons ⟨fun _ _ h => (by cases h), rfl⟩ (.cons ⟨fun _ _ h => (by cases h; rfl), rfl⟩ (.cons ⟨trivial, rfl⟩
          (.cons ⟨fun _ _ h => (by cases h), rfl⟩ (.cons ⟨fun _ _ h => (by cases h), rfl⟩
            (.single ⟨fun _ _ h => (by cases h), rfl⟩)))))))))))
  have hreturned := all_returned (hrun.mono fun _ _ _ h => h.2) (by decide) rfl rfl
  exact ⟨_, hrun, (found_once_returned hrun hreturned 11 "sub" _ rfl).2 anything rfl rfl⟩

theorem deleted_with_the_key :
    ¬ ∀ (acts : List Act) (s : Calls), Run Acts start acts s → (∀ conn_id, s.pending conn_id = []) →
      ∀ conn_id sub_id e, s.registry.entry conn_id sub_id = some e →
        ∀ event, e.scope.matches_channel event.channel_id = true → filters_match e.filters event = true →
          (conn_id, sub_id) ∈ s.registry.fan_out_scoped e.community_id event := by
  intro hall
  have hrun : Run Acts start comes_between _ :=
    .cons rfl (.cons rfl (.cons rfl (.cons rfl (.cons rfl (.cons rfl (.cons rfl (.cons rfl (.cons rfl (.cons rfl (.cons rfl
      (.single rfl)))))))))))
  have hfound := hall _ _ hrun (all_returned hrun (by decide) rfl rfl) 11 "sub" _ rfl anything rfl rfl
  exact absurd hfound (by decide)

end Calls
end Ambush.Relay
