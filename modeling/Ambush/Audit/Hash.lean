import Ambush.Audit.CanonicalJson
import Ambush.Core.Uuid
import Ambush.Lib.Ints
import Ambush.Lib.LittleEndian
/-!
# The audit hash

What `compute_hash` feeds to SHA-256. The fields stand one after another: those of a fixed size and the texts that tell where they
end are bound whatever follows them; the actor, the object, the detail and the previous hash only as far as their lengths are given.
-/
open Lib

namespace Ambush.Audit

/-! ## The time of an entry -/

/-- `DateTime<Utc>`; a leap second is second 60. -/
structure DateTime where
  year : Int
  month : Nat
  day : Nat
  hour : Nat
  minute : Nat
  second : Nat
  nanosecond : Nat
  date_range : month ≤ 12 ∧ day ≤ 31
  time_range : hour < 24 ∧ minute < 60 ∧ second ≤ 60 ∧ nanosecond < 10 ^ 9
deriving DecidableEq

/-- `trunc_subsecs(6)`. -/
def to_storage_precision (created_at : DateTime) : DateTime :=
  { created_at with
    nanosecond := created_at.nanosecond - created_at.nanosecond % 1000
    time_range := ⟨created_at.time_range.1, created_at.time_range.2.1, created_at.time_range.2.2.1,
      (Nat.sub_le _ _).trans_lt created_at.time_range.2.2.2⟩ }

theorem to_storage_precision_idem (t : DateTime) : to_storage_precision (to_storage_precision t) = to_storage_precision t := by
  have hmod : (t.nanosecond - t.nanosecond % 1000) % 1000 = 0 := by omega
  simp only [to_storage_precision, hmod, Nat.sub_zero]

/-- Years outside four digits carry their sign. -/
def year_text (year : Int) : List Char :=
  if 0 ≤ year ∧ year ≤ 9999 then digits 4 year.toNat
  else (if year < 0 then '-' else '+') :: (Nat.toDigits 10 year.natAbs).leftpad 4 '0'

/-- `SecondsFormat::AutoSi`: no digits, three, six or nine. -/
def fraction (nanosecond : Nat) : List Char :=
  if nanosecond = 0 then []
  else if nanosecond % 1000000 = 0 then '.' :: digits 3 (nanosecond / 1000000)
  else if nanosecond % 1000 = 0 then '.' :: digits 6 (nanosecond / 1000)
  else '.' :: digits 9 nanosecond

def to_rfc3339 (t : DateTime) : String :=
  String.ofList (year_text t.year ++ '-' :: (digits 2 t.month ++ '-' :: (digits 2 t.day ++ 'T' :: (digits 2 t.hour ++
    ':' :: (digits 2 t.minute ++ ':' :: (digits 2 t.second ++ (fraction t.nanosecond ++ "+00:00".toList)))))))

/-- The number that leading zeros and digits are of. -/
theorem ofDigitChars_leftpad (n : Nat) : Nat.ofDigitChars 10 ((Nat.toDigits 10 n).leftpad 4 '0') 0 = n := by
  rw [List.leftpad, Nat.ofDigitChars_append, Nat.ofDigitChars_replicate_zero, Nat.mul_zero, Nat.ofDigitChars_ten_toDigits]

theorem digit_of_mem_leftpad {n : Nat} {c : Char} (h : c ∈ (Nat.toDigits 10 n).leftpad 4 '0') : c.isDigit = true := by
  rw [List.leftpad] at h
  rcases List.mem_append.1 h with h | h
  · rw [List.eq_of_mem_replicate h]
    decide
  · exact Nat.isDigit_of_mem_toDigits (by decide) (by decide) h

theorem dash_notMem {l : List Char} (h : ∀ c ∈ l, c.isDigit = true) : '-' ∉ l := fun hmem => absurd (h _ hmem) (by decide)

/-- A sign is no digit. -/
theorem digits_ne_signed {m : Nat} {n : Int} {l l' : List Char} : digits 4 m ++ l ≠ (if n < 0 then '-' else '+') :: l' := by
  intro heq
  cases hd : digits 4 m with
  | nil =>
    have hlen := length_digits 4 m
    rw [hd] at hlen
    cases hlen
  | cons c cs =>
    have hmem : c ∈ digits 4 m := hd ▸ List.mem_cons_self
    have hc := isDigit_of_mem_digits hmem
    rw [hd] at heq
    rw [(List.cons.inj heq).1] at hc
    split at hc <;> exact absurd hc (by decide)

/-- The year ends at the first dash after its sign. -/
theorem year_text_append_inj {y z : Int} {r r' : List Char} (h : year_text y ++ '-' :: r = year_text z ++ '-' :: r') :
    y = z ∧ r = r' := by
  by_cases hy : 0 ≤ y ∧ y ≤ 9999
  · by_cases hz : 0 ≤ z ∧ z ≤ 9999
    · rw [year_text, if_pos hy, year_text, if_pos hz] at h
      obtain ⟨hyear, hr⟩ := digits_append_inj (by omega) (by omega) h
      exact ⟨by omega, (List.cons.inj hr).2⟩
    · rw [year_text, if_pos hy, year_text, if_neg hz] at h
      exact absurd h digits_ne_signed
  · by_cases hz : 0 ≤ z ∧ z ≤ 9999
    · rw [year_text, if_neg hy, year_text, if_pos hz] at h
      exact absurd h.symm digits_ne_signed
    · rw [year_text, if_neg hy, year_text, if_neg hz] at h
      obtain ⟨hsign, h⟩ := List.cons.inj h
      obtain ⟨htext, hr⟩ := stop_append_inj (dash_notMem fun c => digit_of_mem_leftpad) (dash_notMem fun c => digit_of_mem_leftpad) h
      have habs : y.natAbs = z.natAbs := by
        rw [← ofDigitChars_leftpad y.natAbs, htext, ofDigitChars_leftpad]
      refine ⟨?_, hr⟩
      split at hsign <;> split at hsign
      · omega
      · exact absurd hsign (by decide)
      · exact absurd hsign (by decide)
      · omega

/-- Nothing for a whole second, or a dot and what is left of the digits without their last zeros. -/
theorem fraction_cases (n : Nat) : (n = 0 ∧ fraction n = []) ∨
    ∃ width k, fraction n = '.' :: digits width (n / k) ∧ n % k = 0 ∧ (width = 3 ∧ k = 1000000 ∨ width = 6 ∧ k = 1000 ∨ width = 9 ∧ k = 1) := by
  rw [fraction]
  split
  · next hn => exact .inl ⟨hn, rfl⟩
  split
  · next hk => exact .inr ⟨3, 1000000, rfl, hk, .inl ⟨rfl, rfl⟩⟩
  split
  · next hk => exact .inr ⟨6, 1000, rfl, hk, .inr (.inl ⟨rfl, rfl⟩)⟩
  · exact .inr ⟨9, 1, by rw [Nat.div_one], Nat.mod_one n, .inr (.inr ⟨rfl, rfl⟩)⟩

theorem plus_notMem_fraction (n : Nat) : '+' ∉ fraction n := by
  intro hmem
  rcases fraction_cases n with ⟨-, hnone⟩ | ⟨width, k, hdigits, -⟩
  · rw [hnone] at hmem
    cases hmem
  · rw [hdigits] at hmem
    rcases List.mem_cons.1 hmem with h | h
    · exact absurd h (by decide)
    · exact absurd (isDigit_of_mem_digits h) (by decide)

theorem fraction_inj {m n : Nat} (hm : m < 10 ^ 9) (hn : n < 10 ^ 9) (h : fraction m = fraction n) : m = n := by
  rcases fraction_cases m with ⟨hm0, hmf⟩ | ⟨width, k, hmf, hmk, hwidth⟩ <;>
    rcases fraction_cases n with ⟨hn0, hnf⟩ | ⟨width', k', hnf, hnk, hwidth'⟩ <;> rw [hmf, hnf] at h
  · rw [hm0, hn0]
  · cases h
  · cases h
  · have hdigits := (List.cons.inj h).2
    have hlength := congrArg List.length hdigits
    rw [length_digits, length_digits] at hlength
    rcases hwidth with ⟨rfl, rfl⟩ | ⟨rfl, rfl⟩ | ⟨rfl, rfl⟩ <;> subst hlength
    · obtain rfl : k' = 1000000 := by omega
      have := digits_inj (by omega) (by omega) hdigits
      omega
    · obtain rfl : k' = 1000 := by omega
      have := digits_inj (by omega) (by omega) hdigits
      omega
    · obtain rfl : k' = 1 := by omega
      have := digits_inj (by omega) (by omega) hdigits
      omega

theorem to_rfc3339_prefixFree : PrefixFree (fun t => (to_rfc3339 t).toList) := by
  refine .of_split fun t u r r' h => ?_
  simp only [to_rfc3339, String.toList_ofList, List.append_assoc, List.cons_append] at h
  have ht := t.time_range
  have hu := u.time_range
  have htd := t.date_range
  have hud := u.date_range
  obtain ⟨hyear, h⟩ := year_text_append_inj h
  obtain ⟨hmonth, h⟩ := digits_append_inj (by omega) (by omega) h
  obtain ⟨hday, h⟩ := digits_append_inj (by omega) (by omega) (List.cons.inj h).2
  obtain ⟨hhour, h⟩ := digits_append_inj (by omega) (by omega) (List.cons.inj h).2
  obtain ⟨hminute, h⟩ := digits_append_inj (by omega) (by omega) (List.cons.inj h).2
  obtain ⟨hsecond, h⟩ := digits_append_inj (by omega) (by omega) (List.cons.inj h).2
  obtain ⟨hfraction, -⟩ := stop_append_inj (plus_notMem_fraction _) (plus_notMem_fraction _) h
  have hnano := fraction_inj ht.2.2.2 hu.2.2.2 hfraction
  cases t
  cases u
  simp_all

/-! ## Entries -/

inductive AuditAction where
  | EventCreated
  | EventDeleted
  | ChannelCreated
  | ChannelUpdated
  | ChannelDeleted
  | MemberAdded
  | MemberRemoved
  | AuthSuccess
  | AuthFailure
  | RateLimitExceeded
  | MediaUploaded
deriving DecidableEq

namespace AuditAction

def as_str : AuditAction → String
  | .EventCreated => "event_created"
  | .EventDeleted => "event_deleted"
  | .ChannelCreated => "channel_created"
  | .ChannelUpdated => "channel_updated"
  | .ChannelDeleted => "channel_deleted"
  | .MemberAdded => "member_added"
  | .MemberRemoved => "member_removed"
  | .AuthSuccess => "auth_success"
  | .AuthFailure => "auth_failure"
  | .RateLimitExceeded => "rate_limit_exceeded"
  | .MediaUploaded => "media_uploaded"

def ALL : List AuditAction :=
  [.EventCreated, .EventDeleted, .ChannelCreated, .ChannelUpdated, .ChannelDeleted, .MemberAdded, .MemberRemoved, .AuthSuccess,
    .AuthFailure, .RateLimitExceeded, .MediaUploaded]

/-- `str::parse`; nothing is `AuditError::UnknownAction`. -/
def from_str (s : String) : Option AuditAction := ALL.find? (fun a => a.as_str == s)

theorem mem_all (a : AuditAction) : a ∈ ALL := by cases a <;> decide

theorem from_str_as_str (a : AuditAction) : from_str a.as_str = some a := by cases a <;> decide

theorem as_str_of_from_str {s : String} {a : AuditAction} (h : from_str s = some a) : a.as_str = s := by
  simpa using List.find?_some h

theorem as_str_prefixFree : PrefixFree (fun a => (as_str a).toList) := by
  have hall : ∀ a ∈ ALL, ∀ b ∈ ALL, (as_str a).toList <+: (as_str b).toList → a = b := by decide +kernel
  exact fun a b => hall a (mem_all a) b (mem_all b)

end AuditAction

/-- An `i64`. -/
abbrev Seq64 := { n : Int // i64Min ≤ n ∧ n ≤ i64Max }

structure AuditEntry where
  community_id : Uuid
  seq : Seq64
  hash : Bytes
  prev_hash : Option Bytes
  action : AuditAction
  actor_pubkey : Option Bytes
  object_id : Option String
  detail : { v : Value // v.ordered = true }
  created_at : DateTime
deriving DecidableEq

/-! ## What is hashed -/

def GENESIS_HASH : Bytes := List.replicate 32 0

/-- A field behind its presence tag. -/
def tagged : Option Bytes → Bytes
  | some bytes => 1 :: bytes
  | none => [0]

def uuid_bytes (u : Uuid) : Bytes := (to_le 16 u.toNat).reverse

/-- `i64::to_be_bytes`. -/
def to_be_bytes (n : Seq64) : Bytes := (to_le 8 (n.1 % 2 ^ 64).toNat).reverse

/-- The bytes `compute_hash` gives to SHA-256. -/
def hash_input (number : Rat → String) (entry : AuditEntry) : Bytes :=
  uuid_bytes entry.community_id ++ (to_be_bytes entry.seq ++ (utf8 (to_rfc3339 (to_storage_precision entry.created_at)) ++
    (utf8 entry.action.as_str ++ (tagged entry.actor_pubkey ++ (tagged (entry.object_id.map utf8) ++
      (utf8 (String.ofList (canonical_json number entry.detail.1)) ++ entry.prev_hash.getD GENESIS_HASH))))))

theorem uuid_bytes_prefixFree : PrefixFree uuid_bytes := by
  refine .of_length (fun a b => by rw [uuid_bytes, uuid_bytes, List.length_reverse, List.length_reverse, to_le_length, to_le_length]) ?_
  intro a b h
  have hle := congrArg from_le (List.reverse_injective h)
  rw [from_le_to_le (by exact a.isLt), from_le_to_le (by exact b.isLt)] at hle
  exact BitVec.eq_of_toNat_eq hle

theorem to_be_bytes_prefixFree : PrefixFree to_be_bytes := by
  refine .of_length (fun a b => by rw [to_be_bytes, to_be_bytes, List.length_reverse, List.length_reverse, to_le_length, to_le_length]) ?_
  rintro ⟨m, hm⟩ ⟨n, hn⟩ h
  have hle := congrArg from_le (List.reverse_injective h)
  dsimp only at hle
  rw [from_le_to_le (by omega), from_le_to_le (by omega)] at hle
  simp only [i64Min, i64Max] at hm hn
  exact Subtype.ext (by dsimp only; omega)

theorem tagged_isSome {o o' : Option Bytes} {r r' : Bytes} (h : tagged o ++ r = tagged o' ++ r') : o.isSome = o'.isSome := by
  cases o <;> cases o'
  · rfl
  · exact absurd (List.cons.inj h).1 (by decide)
  · exact absurd (List.cons.inj h).1 (by decide)
  · rfl

/-- Fields of one length are told from what follows them. -/
theorem tagged_append_inj {o o' : Option Bytes} {r r' : Bytes} (hlength : o.map List.length = o'.map List.length)
    (h : tagged o ++ r = tagged o' ++ r') : o = o' ∧ r = r' := by
  cases o <;> cases o'
  · exact ⟨rfl, (List.cons.inj h).2⟩
  · cases hlength
  · cases hlength
  · obtain ⟨hbytes, hr⟩ := List.append_inj (List.cons.inj h).2 (Option.some.inj hlength)
    exact ⟨congrArg some hbytes, hr⟩

section
variable {number : Rat → String} (hn : NumberText number)
include hn

/-- What is bound whatever the lengths are, and what is bound once the fields before it are of one length. -/
theorem hash_input_binds (a b : AuditEntry) (h : hash_input number a = hash_input number b) :
    (a.community_id = b.community_id ∧ a.seq = b.seq ∧ to_storage_precision a.created_at = to_storage_precision b.created_at ∧
      a.action = b.action ∧ a.actor_pubkey.isSome = b.actor_pubkey.isSome) ∧
    (a.actor_pubkey.map List.length = b.actor_pubkey.map List.length →
      a.actor_pubkey = b.actor_pubkey ∧ a.object_id.isSome = b.object_id.isSome ∧
      (a.object_id.map String.utf8ByteSize = b.object_id.map String.utf8ByteSize →
        a.object_id = b.object_id ∧
        ((a.prev_hash.getD GENESIS_HASH).length = (b.prev_hash.getD GENESIS_HASH).length →
          a.detail = b.detail ∧ a.prev_hash.getD GENESIS_HASH = b.prev_hash.getD GENESIS_HASH))) := by
  rw [hash_input, hash_input] at h
  obtain ⟨hcommunity, h⟩ := uuid_bytes_prefixFree.split h
  obtain ⟨hseq, h⟩ := to_be_bytes_prefixFree.split h
  obtain ⟨htime, h⟩ := to_rfc3339_prefixFree.utf8.split h
  obtain ⟨haction, h⟩ := AuditAction.as_str_prefixFree.utf8.split h
  refine ⟨⟨hcommunity, hseq, htime, haction, tagged_isSome h⟩, fun hactor => ?_⟩
  obtain ⟨hactor, h⟩ := tagged_append_inj hactor h
  have hsome := tagged_isSome h
  rw [Option.isSome_map, Option.isSome_map] at hsome
  refine ⟨hactor, hsome, fun hobject => ?_⟩
  obtain ⟨hobject, h⟩ := tagged_append_inj (by simpa only [Option.map_map, Function.comp_def, length_utf8] using hobject) h
  refine ⟨Option.map_injective (fun s t => utf8_inj) hobject, fun hprev => ?_⟩
  obtain ⟨hdetail, hprev⟩ := List.append_inj' h hprev
  exact ⟨Subtype.ext (canonical_json_inj hn a.detail.2 b.detail.2 (String.ofList_injective (utf8_inj hdetail))), hprev⟩
end

/-- A numeral with a dot for every double. -/
def plain_number (q : Rat) : String := toString q.num ++ "." ++ toString q.den

theorem toList_plain_number (q : Rat) : (plain_number q).toList = (toString q.num).toList ++ '.' :: (toString q.den).toList := by
  rw [plain_number, String.toList_append, String.toList_append, List.append_assoc]
  rfl

theorem dot_notMem_toString (n : Int) : '.' ∉ (toString n).toList := by
  rw [Int.toString_eq_repr, Int.repr_eq_if]
  split
  · exact notMem_toString (by decide) _
  · rw [String.toList_append]
    intro hmem
    rcases List.mem_append.1 hmem with hmem | hmem
    · exact absurd (List.mem_singleton.1 hmem) (by decide)
    · exact notMem_toString (by decide) _ hmem

theorem plain_number_text : NumberText plain_number where
  chars q c hc := by
    rw [toList_plain_number] at hc
    rcases List.mem_append.1 hc with hc | hc
    · exact toString_int_chars _ c hc
    · rcases List.mem_cons.1 hc with rfl | hc
      · decide
      · simp only [number_char, isDigit_of_mem_toString hc, Bool.true_or]
  nonempty q h := by
    rw [toList_plain_number, List.append_eq_nil_iff] at h
    cases h.2
  injective p q h := by
    have htext := congrArg String.toList h
    rw [toList_plain_number, toList_plain_number] at htext
    obtain ⟨hnum, hden⟩ := stop_append_inj (dot_notMem_toString _) (dot_notMem_toString _) htext
    exact Rat.ext (toString_int_inj (String.toList_inj.1 hnum)) (toString_nat_inj (String.toList_inj.1 hden))
  fractional q n h := by
    refine dot_notMem_toString n ?_
    rw [← h, toList_plain_number]
    exact List.mem_append_right _ List.mem_cons_self

/-- `sample_entry`. -/
theorem null_ordered : Value.null.ordered = true := rfl

theorem one_fits : i64Min ≤ 1 ∧ 1 ≤ i64Max := by decide

def sample_entry : AuditEntry where
  community_id := 1
  seq := ⟨1, one_fits⟩
  hash := []
  prev_hash := none
  action := .EventCreated
  actor_pubkey := some (List.replicate 32 0xab)
  object_id := some "abc123"
  detail := ⟨.null, null_ordered⟩
  created_at := ⟨2026, 1, 1, 0, 0, 0, 123456789, by decide, by decide⟩

/-- The entry of a row. -/
def read_back : AuditEntry := { sample_entry with created_at := to_storage_precision sample_entry.created_at }

theorem hash_input_binds_read_back : sample_entry.detail = read_back.detail ∧
    sample_entry.prev_hash.getD GENESIS_HASH = read_back.prev_hash.getD GENESIS_HASH := by
  have h : hash_input plain_number sample_entry = hash_input plain_number read_back := by
    rw [hash_input, hash_input, read_back, to_storage_precision_idem]
  exact (((hash_input_binds plain_number_text sample_entry read_back h).2 rfl).2.2 rfl).2 rfl

/-- A first entry and one after 32 zero bytes have one input, and so have two that draw the line between object and detail differently. -/
theorem hash_input_ambiguous :
    (∃ a b : AuditEntry, hash_input plain_number a = hash_input plain_number b ∧ a.prev_hash ≠ b.prev_hash) ∧
    ∃ a b : AuditEntry, hash_input plain_number a = hash_input plain_number b ∧ a.prev_hash = b.prev_hash ∧
      a.object_id ≠ b.object_id ∧ a.detail ≠ b.detail := by
  refine ⟨⟨sample_entry, { sample_entry with prev_hash := some GENESIS_HASH }, rfl, by decide⟩, ?_⟩
  exact ⟨{ sample_entry with object_id := some "1", detail := ⟨.integer 23, rfl⟩ },
    { sample_entry with object_id := some "12", detail := ⟨.integer 3, rfl⟩ }, by decide +kernel, rfl, by decide, by decide⟩

end Ambush.Audit
