import Ambush.Lib.Multimaps
import Ambush.Relay.Filters
/-!
# The registry of subscriptions

Subscriptions are stored by connection, and listed in one of five indexes by what their
filters and their scope are bound to. The five indexes are one map here: a `Slot` says
which index and under which key.
-/
open Lib

namespace Ambush.Relay

abbrev ConnId := Uuid
abbrev SubId := String

inductive SubscriptionScope where
  | Global
  | Channels (channel_ids : List Uuid)
  deriving DecidableEq

namespace SubscriptionScope

def matches_channel : SubscriptionScope → Option Uuid → Bool
  | .Global, none => true
  | .Channels channels, some channel_id => channels.contains channel_id
  | _, _ => false

def channel_ids : SubscriptionScope → List Uuid
  | .Global => []
  | .Channels channels => channels

end SubscriptionScope

structure SubEntry where
  filters : List Filter
  community_id : CommunityId
  scope : SubscriptionScope
  deriving DecidableEq

/-- An index, and a key of it. -/
inductive Slot where
  | channel_kind (community_id : CommunityId) (channel_id : Uuid) (kind : Kind)
  | channel_wildcard (community_id : CommunityId) (channel_id : Uuid)
  | global_kind (community_id : CommunityId) (kind : Kind)
  | global_p_kind (community_id : CommunityId) (kind : Kind) (p : String)
  | global_wildcard (community_id : CommunityId)
  deriving DecidableEq

abbrev Index := Map Slot (List (ConnId × SubId))

structure SubscriptionRegistry where
  subs : Map ConnId (Map SubId SubEntry)
  index : Index

structure RemovedSubscription where
  community_id : CommunityId
  scope : SubscriptionScope

structure ChannelSubscriptionUpdate where
  sub_id : SubId
  removed : Bool

def SubscriptionRegistry.new : SubscriptionRegistry := ⟨.empty, .empty⟩

/-! ## Indexing -/

/-- The indexing half of `register_with_scope`. -/
def add_to_index (index : Index) (conn_id : ConnId) (sub_id : SubId) (filters : List Filter) (community_id : CommunityId) :
    SubscriptionScope → Index
  | .Channels channel_ids =>
    channel_ids.foldl (fun index ch_id =>
      match extract_kinds_from_filters filters with
      | none => index.push (.channel_wildcard community_id ch_id) (conn_id, sub_id)
      | some kinds => kinds.foldl (fun index kind => index.push (.channel_kind community_id ch_id kind) (conn_id, sub_id)) index) index
  | .Global =>
    match extract_global_p_kind_index_keys filters with
    | some keys => keys.foldl (fun index (kind, p) => index.push (.global_p_kind community_id kind p) (conn_id, sub_id)) index
    | none =>
      match extract_kinds_from_filters filters with
      | none => index.push (.global_wildcard community_id) (conn_id, sub_id)
      | some kinds => kinds.foldl (fun index kind => index.push (.global_kind community_id kind) (conn_id, sub_id)) index

/-- The entry of a subscription goes from a slot, and the slot with the last entry. -/
def Index.retain (index : Index) (slot : Slot) (conn_id : ConnId) (sub_id : SubId) : Index :=
  index.retain_listed slot (fun (cid, sid) => !(cid = conn_id && sid = sub_id))

def remove_from_index (index : Index) (conn_id : ConnId) (sub_id : SubId) (filters : List Filter) (community_id : CommunityId) :
    SubscriptionScope → Index
  | .Channels channel_ids =>
    channel_ids.foldl (fun index ch_id =>
      match extract_kinds_from_filters filters with
      | none => index.retain (.channel_wildcard community_id ch_id) conn_id sub_id
      | some kinds => kinds.foldl (fun index kind => index.retain (.channel_kind community_id ch_id kind) conn_id sub_id) index) index
  | .Global =>
    match extract_global_p_kind_index_keys filters with
    | some keys => keys.foldl (fun index (kind, p) => index.retain (.global_p_kind community_id kind p) conn_id sub_id) index
    | none =>
      match extract_kinds_from_filters filters with
      | none => index.retain (.global_wildcard community_id) conn_id sub_id
      | some kinds => kinds.foldl (fun index kind => index.retain (.global_kind community_id kind) conn_id sub_id) index

namespace SubscriptionRegistry

/-! ## The calls -/

/-- The current entry of a subscription. -/
def entry (r : SubscriptionRegistry) (conn_id : ConnId) (sub_id : SubId) : Option SubEntry := (r.subs conn_id).bind (· sub_id)

def remove_subscription (r : SubscriptionRegistry) (conn_id : ConnId) (sub_id : SubId) :
    SubscriptionRegistry × Option RemovedSubscription :=
  match r.subs conn_id with
  | none => (r, none)
  | some conn_subs =>
    match conn_subs sub_id with
    | none => (r, none)
    | some e =>
      ({ subs := r.subs.insert conn_id (conn_subs.remove sub_id)
         index := remove_from_index r.index conn_id sub_id e.filters e.community_id e.scope },
        some ⟨e.community_id, e.scope⟩)

def register_with_scope (r : SubscriptionRegistry) (community_id : CommunityId) (conn_id : ConnId) (sub_id : SubId) (filters : List Filter)
    (scope : SubscriptionScope) : SubscriptionRegistry × Option RemovedSubscription :=
  let (r, removed) := r.remove_subscription conn_id sub_id
  ({ subs := r.subs.insert conn_id (((r.subs conn_id).getD .empty).insert sub_id ⟨filters, community_id, scope⟩)
     index := add_to_index r.index conn_id sub_id filters community_id scope }, removed)

def register_scoped (r : SubscriptionRegistry) (community_id : CommunityId) (conn_id : ConnId) (sub_id : SubId) (filters : List Filter)
    (channel_id : Option Uuid) : SubscriptionRegistry × Option RemovedSubscription :=
  let scope := (channel_id.map (fun channel_id => SubscriptionScope.Channels [channel_id])).getD .Global
  r.register_with_scope community_id conn_id sub_id filters scope

def register_channels_scoped (r : SubscriptionRegistry) (community_id : CommunityId) (conn_id : ConnId) (sub_id : SubId)
    (filters : List Filter) (channel_ids : List Uuid) : SubscriptionRegistry × Option RemovedSubscription :=
  r.register_with_scope community_id conn_id sub_id filters (.Channels channel_ids)

/-- `walk` is the order in which the subscriptions of the connection are gone over. -/
def remove_connection (r : SubscriptionRegistry) (conn_id : ConnId) (walk : List SubId) :
    SubscriptionRegistry × List RemovedSubscription :=
  match r.subs conn_id with
  | none => (r, [])
  | some conn_subs =>
    let entries := walk.filterMap (fun sub_id => (conn_subs sub_id).map (sub_id, ·))
    ({ subs := r.subs.remove conn_id
       index := entries.foldl (fun index (sub_id, e) => remove_from_index index conn_id sub_id e.filters e.community_id e.scope) r.index },
      entries.map (fun (_, e) => ⟨e.community_id, e.scope⟩))

/-- One subscription loses a channel, and goes if it was its last. -/
def remove_channel (r : SubscriptionRegistry) (community_id : CommunityId) (conn_id : ConnId) (channel_id : Uuid) (sub_id : SubId) :
    SubscriptionRegistry × Option ChannelSubscriptionUpdate :=
  match r.subs conn_id with
  | none => (r, none)
  | some conn_subs =>
    match conn_subs sub_id with
    | none => (r, none)
    | some e =>
      match e.scope with
      | .Global => (r, none)
      | .Channels channel_ids =>
        let channel_ids := channel_ids.filter (· ≠ channel_id)
        let removed := channel_ids.isEmpty
        let conn_subs := conn_subs.insert sub_id { e with scope := .Channels channel_ids }
        ({ subs := r.subs.insert conn_id (if removed then conn_subs.remove sub_id else conn_subs)
           index := remove_from_index r.index conn_id sub_id e.filters community_id (.Channels [channel_id]) },
          some ⟨sub_id, removed⟩)

def remove_channel_subscriptions_scoped (r : SubscriptionRegistry) (community_id : CommunityId) (conn_id : ConnId) (channel_id : Uuid)
    (walk : List SubId) : SubscriptionRegistry × List ChannelSubscriptionUpdate :=
  let sub_ids := walk.filter (fun sub_id =>
    (r.entry conn_id sub_id).any (fun e => e.community_id = community_id && e.scope.channel_ids.contains channel_id))
  sub_ids.foldl (fun (r, updates) sub_id =>
    let (r, update) := r.remove_channel community_id conn_id channel_id sub_id
    (r, updates ++ update.toList)) (r, [])

/-! ## Fan-out -/

/-- The subscription's current entry wants the event. -/
def wants (r : SubscriptionRegistry) (community_id : CommunityId) (event : StoredEvent) (pair : ConnId × SubId) : Bool :=
  (r.entry pair.1 pair.2).any (fun e =>
    e.community_id = community_id && e.scope.matches_channel event.channel_id && filters_match e.filters event)

def push_match (r : SubscriptionRegistry) (community_id : CommunityId) (event : StoredEvent) (results : List (ConnId × SubId))
    (pair : ConnId × SubId) : List (ConnId × SubId) :=
  if r.wants community_id event pair then push_new results pair else results

/-- The slots that `fan_out_scoped` looks into, in its order. -/
def candidate_slots (community_id : CommunityId) (event : StoredEvent) : List Slot :=
  match event.channel_id with
  | some channel_id => [.channel_kind community_id channel_id event.event.kind, .channel_wildcard community_id channel_id]
  | none =>
    (event_p_tag_values event).map (.global_p_kind community_id event.event.kind) ++
      [.global_kind community_id event.event.kind, .global_wildcard community_id]

def fan_out_scoped (r : SubscriptionRegistry) (community_id : CommunityId) (event : StoredEvent) : List (ConnId × SubId) :=
  (candidate_slots community_id event).foldl
    (fun results slot => (r.index.listed slot).foldl (r.push_match community_id event) results) []

end SubscriptionRegistry
end Ambush.Relay
