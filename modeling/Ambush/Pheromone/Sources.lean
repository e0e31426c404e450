import Ambush.Lib.Results
import Ambush.Lib.Runs
import Ambush.Lib.Texts
import Ambush.Pheromone.Collection
import Ambush.Pheromone.Journal
/-!
# Who the sources of a concentration are

A deposit is accepted when its signature verifies, its agent id begins with the identity of its signing key, and one of the two is
admitted. A concentration counts agent ids. An agent id is the identity of a key, alone or with a scope behind it, so that it belongs to
one key, and a key has as many sources as it signs under scopes.
-/
open Lib

namespace Ambush.Pheromone
open Ambush.Bridge (ThreatClass)

/-! ## Signed deposits -/

structure SignedDeposit (F : Type) extends PheromoneDeposit F where
  agent_identity : String
  agent_role : Option AgentRole
  signature : Bytes
  agent_key : Bytes

inductive SubstrateError where
  | InvalidDeposit (reason : String)
  | Encode (context source : String)
  deriving DecidableEq

/-- What is signed; a legacy payload has no version. -/
structure DepositSigningPayload (F : Type) where
  schema_version : Option Nat
  indicator : Value
  threat_class : ThreatClass
  severity : Severity
  confidence : F
  timestamp : Int
  decay_half_life : F
  agent_id : String
  agent_identity : String
  agent_role : Option AgentRole

/-- `ed25519_dalek` and `serde_json`. A key keeps the bytes it was read from. -/
structure Signatures (F K : Type) where
  from_bytes : Bytes → Except String K
  to_bytes : K → Bytes
  verify : K → Bytes → Bytes → Except String Unit
  to_vec : DepositSigningPayload F → Except String Bytes
  to_from : ∀ bytes key, from_bytes bytes = .ok key → to_bytes key = bytes

def PHEROMONE_DEPOSIT_PREVIOUS_SCHEMA_VERSION : Nat := 1

def PHEROMONE_DEPOSIT_CURRENT_SCHEMA_VERSION : Nat := 2

def supports_schema_version (schema_version : Nat) : Bool :=
  schema_version = PHEROMONE_DEPOSIT_PREVIOUS_SCHEMA_VERSION || schema_version = PHEROMONE_DEPOSIT_CURRENT_SCHEMA_VERSION

/-- `AgentId::from_verifying_key`, of the key's bytes. -/
def from_public_key (bytes : Bytes) : String := "swarm:ed25519:" ++ String.ofList (hex bytes)

/-- What `str::strip_prefix` leaves, as characters. -/
def stripped (text front : String) : Option (List Char) :=
  if front.toList <+: text.toList then some (text.toList.drop front.toList.length) else none

section
variable {F K : Type}

def payload_of (deposit : SignedDeposit F) : DepositSigningPayload F where
  schema_version :=
    if deposit.schema_version = PHEROMONE_DEPOSIT_PREVIOUS_SCHEMA_VERSION then none else some deposit.schema_version
  indicator := deposit.indicator
  threat_class := deposit.threat_class
  severity := deposit.severity
  confidence := deposit.confidence
  timestamp := deposit.timestamp
  decay_half_life := deposit.decay_half_life
  agent_id := deposit.agent_id
  agent_identity := deposit.agent_identity
  agent_role := deposit.agent_role

def ensure_supported_deposit_schema_version (schema_version : Nat) : Except SubstrateError Unit :=
  if supports_schema_version schema_version then .ok ()
  else .error (.InvalidDeposit ("unsupported pheromone deposit schema version " ++ "`" ++ toString schema_version ++ "`"))

/-- The agent id is the key's identity, or the identity, a colon and something more. -/
def agent_id_matches (derived_agent_id agent_id : String) : Bool :=
  derived_agent_id = agent_id ||
    (stripped agent_id derived_agent_id).any (fun suffix => suffix.head? = some ':' && suffix.length > 1)

/-- `if condition { return Err(SubstrateError::InvalidDeposit { reason }) }`. -/
def invalid_if (condition : Bool) (reason : String) : Except SubstrateError Unit :=
  if condition then .error (.InvalidDeposit reason) else .ok ()

def validate_deposit_signature (c : Signatures F K) (deposit : SignedDeposit F) : Except SubstrateError Unit := do
  ensure_supported_deposit_schema_version deposit.schema_version
  invalid_if deposit.signature.isEmpty "empty signature"
  invalid_if deposit.agent_key.isEmpty "empty agent_key"
  invalid_if (deposit.agent_key.length ≠ 32) ("agent_key must be 32 bytes, got " ++ toString deposit.agent_key.length)
  let verifying_key ← (c.from_bytes deposit.agent_key).mapError (fun err => .InvalidDeposit ("invalid agent_key: " ++ err))
  invalid_if (deposit.signature.length ≠ 64) ("signature must be 64 bytes, got " ++ toString deposit.signature.length)
  let payload_bytes ← (c.to_vec (payload_of deposit)).mapError (.Encode "deposit signing payload")
  (c.verify verifying_key payload_bytes deposit.signature).mapError
    (fun err => .InvalidDeposit ("signature verification failed: " ++ err))
  let derived_agent_id := from_public_key (c.to_bytes verifying_key)
  invalid_if (!agent_id_matches derived_agent_id deposit.agent_id)
    ("agent_id `" ++ deposit.agent_id ++ "` does not match signing key identity `" ++ derived_agent_id ++ "`")
  invalid_if (deposit.agent_identity ≠ derived_agent_id)
    ("agent_identity `" ++ deposit.agent_identity ++ "` does not match signing key identity `" ++ derived_agent_id ++ "`")

/-- `None` admits every identity. -/
def validate_deposit_admission (admitted_identities : Option (List String)) (deposit : SignedDeposit F) : Except SubstrateError Unit :=
  match admitted_identities with
  | none => .ok ()
  | some admitted_identities =>
    if deposit.agent_id ∉ admitted_identities ∧ deposit.agent_identity ∉ admitted_identities then
      .error (.InvalidDeposit ("agent `" ++ deposit.agent_id ++ "` is not admitted"))
    else .ok ()

/-! ## What a valid deposit is -/

theorem ok_of_invalid_if {condition : Bool} {reason : String} {u : Unit} (h : invalid_if condition reason = .ok u) :
    condition = false := by
  unfold invalid_if at h
  split at h
  · cases h
  · next hfalse => exact Bool.eq_false_iff.2 hfalse

theorem ok_of_mapError {E E' A : Type} {f : E → E'} {x : Except E A} {a : A} (h : x.mapError f = .ok a) : x = .ok a := by
  cases x with
  | error e => cases h
  | ok b =>
    cases h
    rfl

theorem valid_of_validate {c : Signatures F K} {deposit : SignedDeposit F} (h : validate_deposit_signature c deposit = .ok ()) :
    deposit.agent_key.length = 32 ∧ agent_id_matches (from_public_key deposit.agent_key) deposit.agent_id = true ∧
      deposit.agent_identity = from_public_key deposit.agent_key := by
  unfold validate_deposit_signature at h
  obtain ⟨_, -, h⟩ := (ok_bind_iff _ _ _).1 h
  obtain ⟨_, -, h⟩ := (ok_bind_iff _ _ _).1 h
  obtain ⟨_, -, h⟩ := (ok_bind_iff _ _ _).1 h
  obtain ⟨_, hlength, h⟩ := (ok_bind_iff _ _ _).1 h
  obtain ⟨key, hkey, h⟩ := (ok_bind_iff _ _ _).1 h
  obtain ⟨_, -, h⟩ := (ok_bind_iff _ _ _).1 h
  obtain ⟨payload, -, h⟩ := (ok_bind_iff _ _ _).1 h
  obtain ⟨_, -, h⟩ := (ok_bind_iff _ _ _).1 h
  obtain ⟨_, hid, h⟩ := (ok_bind_iff _ _ _).1 h
  have hbytes := c.to_from _ _ (ok_of_mapError hkey)
  have hmatch := ok_of_invalid_if hid
  have hidentity := ok_of_invalid_if h
  rw [hbytes] at hmatch hidentity
  refine ⟨?_, ?_, ?_⟩
  · simpa using ok_of_invalid_if hlength
  · rwa [Bool.not_eq_false'] at hmatch
  · simpa using hidentity

/-- What follows the identity of the key in the agent id. -/
def scope (deposit : SignedDeposit F) : List Char := deposit.agent_id.toList.drop (from_public_key deposit.agent_key).toList.length

/-- The agent id is the identity of the key, alone or with a scope. -/
structure Bound (deposit : SignedDeposit F) : Prop where
  key : deposit.agent_key.length = 32
  agent_id : deposit.agent_id.toList = (from_public_key deposit.agent_key).toList ++ scope deposit
  scope : scope deposit = [] ∨ ∃ name, name ≠ [] ∧ scope deposit = ':' :: name

theorem bound_of_validate {c : Signatures F K} {deposit : SignedDeposit F} (h : validate_deposit_signature c deposit = .ok ()) :
    Bound deposit := by
  obtain ⟨hkey, hmatch, -⟩ := valid_of_validate h
  unfold agent_id_matches at hmatch
  rcases Bool.or_eq_true_iff.1 hmatch with hsame | hscoped
  · have hsame := of_decide_eq_true hsame
    have hnone : scope deposit = [] := by
      unfold scope
      rw [← hsame]
      exact List.drop_length
    exact ⟨hkey, by rw [hnone, List.append_nil, hsame], .inl hnone⟩
  · obtain ⟨suffix, hsuffix, hcolon⟩ := (Option.any_eq_true _ _).1 hscoped
    unfold stripped at hsuffix
    split at hsuffix
    · next hfront =>
      have hscope : scope deposit = suffix := Option.some.inj hsuffix
      obtain ⟨rest, hrest⟩ := hfront
      have hid : deposit.agent_id.toList = (from_public_key deposit.agent_key).toList ++ scope deposit := by
        unfold scope
        rw [← hrest, List.drop_left]
      refine ⟨hkey, hid, .inr ?_⟩
      rw [hscope]
      simp only [Bool.and_eq_true, decide_eq_true_eq] at hcolon
      obtain ⟨name, rfl⟩ := List.head?_eq_some_iff.1 hcolon.1
      refine ⟨name, fun hnil => ?_, rfl⟩
      rw [hnil] at hcolon
      exact absurd hcolon.2 (by decide)
    · cases hsuffix

theorem toList_from_public_key (bytes : Bytes) : (from_public_key bytes).toList = "swarm:ed25519:".toList ++ hex bytes := by
  unfold from_public_key
  rw [String.toList_append]
  exact congrArg _ String.toList_ofList

/-- An agent id belongs to one key. -/
theorem key_of_agent_id {a b : SignedDeposit F} (ha : Bound a) (hb : Bound b) (hid : a.agent_id = b.agent_id) :
    a.agent_key = b.agent_key := by
  have hlists := (ha.agent_id.symm.trans (congrArg String.toList hid)).trans hb.agent_id
  have hlength : (from_public_key a.agent_key).toList.length = (from_public_key b.agent_key).toList.length := by
    rw [toList_from_public_key, toList_from_public_key, List.length_append, List.length_append, length_hex, length_hex, ha.key, hb.key]
  have hkeys := (List.append_inj hlists hlength).1
  rw [toList_from_public_key, toList_from_public_key] at hkeys
  exact hex_inj (List.append_cancel_left hkeys)

/-! ## The substrate -/

structure AdmittingSubstrate (F : Type) where
  config : PheromoneConfig F
  threat_class_configs : Map ThreatClass (ThreatClassConfig F)
  admitted_identities : Option (List String)
  deposits : List (SignedDeposit F)
  /-- What `deposit` has accepted, collected or not. -/
  accepted : List (SignedDeposit F)

inductive SubstrateCall (F : Type) where
  | set_admitted_identities (identities : List String)
  | store_threat_class_config (config : ThreatClassConfig F)
  | deposit (deposit : SignedDeposit F)
  | gc_evaporated (now : Int)

end

section
variable {F K : Type} [LinearOrder F] [Zero F] [Add F] (decay : Decay F) (c : Signatures F K)

namespace AdmittingSubstrate

def opened (config : PheromoneConfig F) : AdmittingSubstrate F := ⟨config, Map.empty, none, [], []⟩

/-- The substrate as the queries read it. -/
def read (s : AdmittingSubstrate F) : InMemoryPheromoneSubstrate F :=
  ⟨s.config, s.threat_class_configs, s.deposits.map SignedDeposit.toPheromoneDeposit⟩

def deposit (s : AdmittingSubstrate F) (deposit : SignedDeposit F) : Except SubstrateError (AdmittingSubstrate F) := do
  validate_deposit_signature c deposit
  validate_deposit_admission s.admitted_identities deposit
  .ok { s with deposits := s.deposits ++ [deposit], accepted := s.accepted ++ [deposit] }

/-- A refused deposit changes nothing. -/
def call (s : AdmittingSubstrate F) : SubstrateCall F → AdmittingSubstrate F
  | .set_admitted_identities identities => { s with admitted_identities := some identities }
  | .store_threat_class_config config =>
    { s with threat_class_configs := s.threat_class_configs.insert config.threat_class config }
  | .deposit deposit => (s.deposit c deposit).toOption.getD s
  | .gc_evaporated now =>
    { s with deposits := s.deposits.filter (fun deposit => !is_evaporated decay deposit.toPheromoneDeposit now
        (s.read.resolved_policy deposit.threat_class).evaporation_threshold) }

end AdmittingSubstrate

def PheromoneConcentration.exceeds_threshold (concentration : PheromoneConcentration F) (strength_threshold : F) (min_sources : Nat) : Bool :=
  strength_threshold ≤ concentration.total_strength && min_sources ≤ concentration.distinct_sources

/-! ## What is counted -/

/-- Each source is the agent id of a row, and is counted once. -/
theorem sources_of_rows (suppressed : PheromoneDeposit F → Bool) (now : Int) (rows : List (PheromoneDeposit F)) (acc : Summed F)
    (h : acc.sources.Nodup) :
    (rows.foldl (sum_row decay suppressed now) acc).sources.Nodup ∧
      ∀ id ∈ (rows.foldl (sum_row decay suppressed now) acc).sources, id ∈ acc.sources ∨ id ∈ rows.map (·.agent_id) := by
  induction rows generalizing acc with
  | nil => exact ⟨h, fun id hid => .inl hid⟩
  | cons row rows ih =>
    have hrow : (sum_row decay suppressed now acc row).sources.Nodup ∧
        ∀ id ∈ (sum_row decay suppressed now acc row).sources, id ∈ acc.sources ∨ id = row.agent_id := by
      unfold sum_row
      split
      · exact ⟨h, fun id hid => .inl hid⟩
      · split
        · exact ⟨h, fun id hid => .inl hid⟩
        · exact ⟨h.insert, fun id hid => (List.mem_insert_iff.1 hid).symm⟩
    obtain ⟨hnodup, hsub⟩ := ih (sum_row decay suppressed now acc row) hrow.1
    refine ⟨hnodup, fun id hid => ?_⟩
    rcases hsub id hid with hid | hid
    · rcases hrow.2 id hid with hid | rfl
      · exact .inl hid
      · exact .inr (by simp)
    · exact .inr (List.mem_cons_of_mem _ hid)

theorem distinct_sources_le (deposits : List (PheromoneDeposit F)) (threat_class : ThreatClass) (now : Int) (policy : ThreatClassPolicy F) :
    (concentration_for decay deposits threat_class now policy).distinct_sources ≤
      ((deposits.filter (·.threat_class = threat_class)).map (·.agent_id)).toFinset.card := by
  rw [concentration_for_eq]
  dsimp only
  generalize hsuppressed : (fun deposit => (dismissal deposits deposit).isSome) = suppressed
  obtain ⟨hnodup, hsub⟩ := sources_of_rows decay suppressed now (live decay deposits threat_class now policy.evaporation_threshold)
    ⟨0, [], 0⟩ List.nodup_nil
  rw [← List.toFinset_card_of_nodup hnodup]
  refine Finset.card_le_card fun id hid => ?_
  rcases hsub id (List.mem_toFinset.1 hid) with hnone | hrow
  · cases hnone
  · obtain ⟨row, hlive, rfl⟩ := List.mem_map.1 hrow
    exact List.mem_toFinset.2 (List.mem_map_of_mem (List.mem_filter.1 hlive).1)

namespace AdmittingSubstrate

/-- The deposits that are kept were accepted, and what was accepted is bound to its key. -/
structure Admitted (s : AdmittingSubstrate F) : Prop where
  kept : ∀ deposit ∈ s.deposits, deposit ∈ s.accepted
  bound : ∀ deposit ∈ s.accepted, Bound deposit

variable {s : AdmittingSubstrate F}

omit [Zero F] [Add F] in
theorem admitted_call (h : Admitted s) (call : SubstrateCall F) : Admitted (s.call decay c call) := by
  cases call with
  | set_admitted_identities identities => exact ⟨h.kept, h.bound⟩
  | store_threat_class_config config => exact ⟨h.kept, h.bound⟩
  | gc_evaporated now => exact ⟨fun deposit hd => h.kept deposit (List.mem_filter.1 hd).1, h.bound⟩
  | deposit deposit =>
    unfold call
    dsimp only
    cases hresult : s.deposit c deposit with
    | error error => exact h
    | ok s' =>
      obtain ⟨_, hvalid, hresult⟩ := (ok_bind_iff _ _ _).1 hresult
      obtain ⟨_, -, hresult⟩ := (ok_bind_iff _ _ _).1 hresult
      cases hresult
      refine ⟨fun d hd => ?_, fun d hd => ?_⟩
      · rcases List.mem_append.1 hd with hd | hd
        · exact List.mem_append_left _ (h.kept d hd)
        · exact List.mem_append_right _ hd
      · rcases List.mem_append.1 hd with hd | hd
        · exact h.bound d hd
        · rw [List.mem_singleton.1 hd]
          exact bound_of_validate hvalid

omit [Zero F] [Add F] in
theorem admitted_run (config : PheromoneConfig F) (calls : List (SubstrateCall F)) :
    Admitted (calls.foldl (call decay c) (opened config)) := by
  have hrun : ∀ (calls : List (SubstrateCall F)) (s : AdmittingSubstrate F), Admitted s → Admitted (calls.foldl (call decay c) s) := by
    intro calls
    induction calls with
    | nil => exact fun s h => h
    | cons next rest ih => exact fun s h => ih _ (admitted_call decay c h next)
  exact hrun calls _ ⟨fun _ h => (nomatch h), fun _ h => (nomatch h)⟩

/-- The accepted deposits of a class. -/
def signed_for (s : AdmittingSubstrate F) (threat_class : ThreatClass) : List (SignedDeposit F) :=
  s.accepted.filter (·.threat_class = threat_class)

/-- A class has at most as many sources as there are agent ids among its accepted deposits. -/
theorem sources_le_agent_ids (h : Admitted s) (threat_class : ThreatClass) (now : Int) :
    (s.read.query_concentration decay threat_class now).distinct_sources ≤
      ((s.signed_for threat_class).map (·.agent_id)).toFinset.card := by
  refine (distinct_sources_le decay _ _ _ _).trans (Finset.card_le_card fun id hid => ?_)
  obtain ⟨row, hrow, rfl⟩ := List.mem_map.1 (List.mem_toFinset.1 hid)
  obtain ⟨hrow, hclass⟩ := List.mem_filter.1 hrow
  obtain ⟨deposit, hdeposit, rfl⟩ := List.mem_map.1 hrow
  exact List.mem_toFinset.2 (List.mem_map.2 ⟨deposit, List.mem_filter.2 ⟨h.kept deposit hdeposit, hclass⟩, rfl⟩)

omit [LinearOrder F] [Zero F] [Add F] in
theorem agent_ids_le (h : Admitted s) (threat_class : ThreatClass) :
    ((s.signed_for threat_class).map (·.agent_id)).toFinset.card ≤
      ((s.signed_for threat_class).map (fun deposit => (deposit.agent_key, scope deposit))).toFinset.card := by
  refine Finset.card_le_card_of_surjOn
    (fun signer => String.ofList ((from_public_key signer.1).toList ++ signer.2)) fun id hid => ?_
  obtain ⟨deposit, hdeposit, rfl⟩ := List.mem_map.1 (List.mem_toFinset.1 hid)
  refine ⟨(deposit.agent_key, scope deposit), List.mem_toFinset.2 (List.mem_map_of_mem hdeposit), ?_⟩
  dsimp only
  rw [← (h.bound deposit (List.mem_filter.1 hdeposit).1).agent_id, String.ofList_toList]

omit [LinearOrder F] [Zero F] [Add F] in
theorem scoped_le_keys (threat_class : ThreatClass) (hunscoped : ∀ deposit ∈ s.signed_for threat_class, scope deposit = []) :
    ((s.signed_for threat_class).map (fun deposit => (deposit.agent_key, scope deposit))).toFinset.card ≤
      ((s.signed_for threat_class).map (·.agent_key)).toFinset.card := by
  refine Finset.card_le_card_of_surjOn (fun key => (key, [])) fun signer hsigner => ?_
  obtain ⟨deposit, hdeposit, rfl⟩ := List.mem_map.1 (List.mem_toFinset.1 hsigner)
  exact ⟨deposit.agent_key, List.mem_toFinset.2 (List.mem_map_of_mem hdeposit), by rw [hunscoped deposit hdeposit]⟩

/-- The sources of a class are no more than its signing keys with their scopes, and than its keys where none has a scope. No agent id is
of two keys. -/
theorem sources_bound_to_keys (config : PheromoneConfig F) (calls : List (SubstrateCall F)) (threat_class : ThreatClass) (now : Int) :
    let s := calls.foldl (call decay c) (opened config)
    let concentration := s.read.query_concentration decay threat_class now
    let signers := ((s.signed_for threat_class).map (fun deposit => (deposit.agent_key, scope deposit))).toFinset
    concentration.distinct_sources ≤ signers.card ∧
      (∀ strength_threshold min_sources, concentration.exceeds_threshold strength_threshold min_sources = true → min_sources ≤ signers.card) ∧
      ((∀ deposit ∈ s.signed_for threat_class, scope deposit = []) →
        concentration.distinct_sources ≤ ((s.signed_for threat_class).map (·.agent_key)).toFinset.card) ∧
      ∀ a ∈ s.accepted, ∀ b ∈ s.accepted, a.agent_id = b.agent_id → a.agent_key = b.agent_key := by
  intro s concentration signers
  have hadmitted := admitted_run decay c config calls
  have hsigners : concentration.distinct_sources ≤ signers.card :=
    (sources_le_agent_ids decay hadmitted threat_class now).trans (agent_ids_le hadmitted threat_class)
  refine ⟨hsigners, fun strength_threshold min_sources hexceeds => ?_, fun hunscoped => ?_, fun a ha b hb hid => ?_⟩
  · exact (of_decide_eq_true (Bool.and_eq_true_iff.1 hexceeds).2).trans hsigners
  · exact hsigners.trans (scoped_le_keys threat_class hunscoped)
  · exact key_of_agent_id (hadmitted.bound a ha) (hadmitted.bound b hb) hid

end AdmittingSubstrate
end

/-- A signature is valid that has sixty-four bytes. -/
def trusting : Signatures Int Bytes where
  from_bytes bytes := .ok bytes
  to_bytes key := key
  verify _ _ signature := if signature.length = 64 then .ok () else .error "signature error"
  to_vec _ := .ok []
  to_from _ _ h := (Except.ok.inj h).symm

def whisker_key : Bytes := List.replicate 32 1

/-- A deposit of one agent, under one of its strategies. -/
def scoped_deposit (strategy : String) : SignedDeposit Int where
  indicator := .null
  threat_class := .Execution
  severity := .High
  confidence := 100
  timestamp := 0
  decay_half_life := 3600
  agent_id := from_public_key whisker_key ++ ":" ++ strategy
  agent_identity := from_public_key whisker_key
  agent_role := none
  signature := List.replicate 64 0
  agent_key := whisker_key

def two_strategies : List (SubstrateCall Int) :=
  [.set_admitted_identities [from_public_key whisker_key], .deposit (scoped_deposit "suspicious_process_tree"),
    .deposit (scoped_deposit "dns_exfiltration")]

/-- One key, admitted once, is two sources. -/
theorem two_sources_of_one_key :
    let s := two_strategies.foldl (AdmittingSubstrate.call steady trusting) (.opened ⟨3600, 10, 2, 2000, 5000, 300⟩)
    let concentration := s.read.query_concentration steady .Execution 0
    concentration.distinct_sources = 2 ∧ ((s.signed_for .Execution).map (·.agent_key)).toFinset.card = 1 ∧
      concentration.exceeds_threshold 0 2 = true := by
  decide +kernel

end Ambush.Pheromone
