import Mathlib.Data.List.Basic
/-!
# Frames in a row

Frames of any kind, each written as a list of its own, one behind the other; where each of
them starts, and what a cut of the row at any place leaves of it: the frames that end
before the cut, and the front of the one it goes through.
-/
namespace Lib.Frames

variable {α β : Type} (encode : α → List β)

def stream (frames : List α) : List β := frames.flatMap encode

/-- Each frame beside the place it starts at. -/
def located : Nat → List α → List (α × Nat)
  | _, [] => []
  | offset, a :: frames => (a, offset) :: located (offset + (encode a).length) frames

/-- The frames that end within the first `cut` places. -/
def whole : Nat → List α → List α
  | _, [] => []
  | cut, a :: frames => if (encode a).length ≤ cut then a :: whole (cut - (encode a).length) frames else []

/-- The frames behind those. -/
def rest (cut : Nat) (frames : List α) : List α := frames.drop (whole encode cut frames).length

/-- Where the last whole frame ends. -/
def boundary (cut : Nat) (frames : List α) : Nat := (stream encode (whole encode cut frames)).length

/-- What the cut leaves of the frame it goes through. -/
def torn (cut : Nat) (frames : List α) : List β :=
  ((rest encode cut frames).head?.map (fun a => (encode a).take (cut - boundary encode cut frames))).getD []

@[simp] theorem stream_nil : stream encode ([] : List α) = [] := rfl

@[simp] theorem stream_cons (a : α) (frames : List α) : stream encode (a :: frames) = encode a ++ stream encode frames := rfl

@[simp] theorem stream_append (frames more : List α) :
    stream encode (frames ++ more) = stream encode frames ++ stream encode more := List.flatMap_append

section Cut
variable {encode} {cut : Nat} {a : α} {frames : List α}

theorem whole_cons_of_le (h : (encode a).length ≤ cut) :
    whole encode cut (a :: frames) = a :: whole encode (cut - (encode a).length) frames := by rw [whole, if_pos h]

theorem whole_cons_of_lt (h : cut < (encode a).length) : whole encode cut (a :: frames) = [] := by
  rw [whole, if_neg (Nat.not_le.2 h)]

theorem rest_cons_of_le (h : (encode a).length ≤ cut) :
    rest encode cut (a :: frames) = rest encode (cut - (encode a).length) frames := by
  rw [rest, whole_cons_of_le h, List.length_cons, List.drop_succ_cons, rest]

theorem rest_cons_of_lt (h : cut < (encode a).length) : rest encode cut (a :: frames) = a :: frames := by
  rw [rest, whole_cons_of_lt h, List.length_nil, List.drop_zero]

theorem boundary_cons_of_le (h : (encode a).length ≤ cut) :
    boundary encode cut (a :: frames) = (encode a).length + boundary encode (cut - (encode a).length) frames := by
  rw [boundary, whole_cons_of_le h, stream_cons, List.length_append, boundary]

theorem boundary_cons_of_lt (h : cut < (encode a).length) : boundary encode cut (a :: frames) = 0 := by
  rw [boundary, whole_cons_of_lt h, stream_nil, List.length_nil]

theorem torn_cons_of_le (h : (encode a).length ≤ cut) :
    torn encode cut (a :: frames) = torn encode (cut - (encode a).length) frames := by
  rw [torn, torn, rest_cons_of_le h, boundary_cons_of_le h, Nat.sub_sub]

theorem torn_cons_of_lt (h : cut < (encode a).length) : torn encode cut (a :: frames) = (encode a).take cut := by
  rw [torn, rest_cons_of_lt h, boundary_cons_of_lt h, Nat.sub_zero]
  rfl
end Cut

theorem whole_append_rest (cut : Nat) (frames : List α) : whole encode cut frames ++ rest encode cut frames = frames := by
  induction frames generalizing cut with
  | nil => rfl
  | cons a frames ih =>
    rcases Nat.lt_or_ge cut (encode a).length with h | h
    · rw [whole_cons_of_lt h, rest_cons_of_lt h, List.nil_append]
    · rw [whole_cons_of_le h, rest_cons_of_le h, List.cons_append, ih]

theorem mem_of_mem_whole {cut : Nat} {frames : List α} {a : α} (h : a ∈ whole encode cut frames) : a ∈ frames := by
  rw [← whole_append_rest encode cut frames]
  exact List.mem_append_left _ h

theorem mem_of_mem_rest {cut : Nat} {frames : List α} {a : α} (h : a ∈ rest encode cut frames) : a ∈ frames := by
  rw [← whole_append_rest encode cut frames]
  exact List.mem_append_right _ h

theorem boundary_le (cut : Nat) (frames : List α) : boundary encode cut frames ≤ cut := by
  induction frames generalizing cut with
  | nil => exact Nat.zero_le cut
  | cons a frames ih =>
    rcases Nat.lt_or_ge cut (encode a).length with h | h
    · rw [boundary_cons_of_lt h]
      exact Nat.zero_le cut
    · rw [boundary_cons_of_le h]
      have := ih (cut - (encode a).length)
      omega

/-- The first frame that is not whole goes past the cut. -/
theorem lt_of_rest {cut : Nat} {frames : List α} {a : α} (h : (rest encode cut frames).head? = some a) :
    cut < boundary encode cut frames + (encode a).length := by
  induction frames generalizing cut with
  | nil => cases h
  | cons b frames ih =>
    rcases Nat.lt_or_ge cut (encode b).length with hb | hb
    · rw [rest_cons_of_lt hb, List.head?_cons] at h
      obtain rfl := Option.some.inj h
      rw [boundary_cons_of_lt hb, Nat.zero_add]
      exact hb
    · rw [rest_cons_of_le hb] at h
      rw [boundary_cons_of_le hb]
      have := ih h
      omega

/-- What a cut leaves. -/
theorem take_stream (cut : Nat) (frames : List α) :
    (stream encode frames).take cut = stream encode (whole encode cut frames) ++ torn encode cut frames := by
  induction frames generalizing cut with
  | nil => exact List.take_nil
  | cons a frames ih =>
    rw [stream_cons]
    rcases Nat.lt_or_ge cut (encode a).length with h | h
    · rw [whole_cons_of_lt h, torn_cons_of_lt h, stream_nil, List.nil_append, List.take_append_of_le_length (Nat.le_of_lt h)]
    · rw [whole_cons_of_le h, torn_cons_of_le h, stream_cons, List.append_assoc, ← ih, List.take_append,
        List.take_of_length_le h]

/-- Not cut at all. -/
theorem whole_length (frames : List α) : whole encode (stream encode frames).length frames = frames := by
  induction frames with
  | nil => rfl
  | cons a frames ih =>
    rw [stream_cons, List.length_append, whole_cons_of_le (Nat.le_add_right _ _), Nat.add_sub_cancel_left, ih]

/-- A cut behind `frames`. -/
theorem whole_append (frames more : List α) (cut : Nat) :
    whole encode ((stream encode frames).length + cut) (frames ++ more) = frames ++ whole encode cut more := by
  induction frames with
  | nil => rw [stream_nil, List.length_nil, Nat.zero_add, List.nil_append, List.nil_append]
  | cons a frames ih =>
    rw [stream_cons, List.length_append, List.cons_append, whole_cons_of_le (by omega), Nat.add_assoc, Nat.add_sub_cancel_left,
      ih, List.cons_append]

theorem rest_append (frames more : List α) (cut : Nat) :
    rest encode ((stream encode frames).length + cut) (frames ++ more) = rest encode cut more := by
  rw [rest, whole_append, List.length_append, ← List.drop_drop, List.drop_left' rfl, rest]

theorem boundary_append (frames more : List α) (cut : Nat) :
    boundary encode ((stream encode frames).length + cut) (frames ++ more) =
      (stream encode frames).length + boundary encode cut more := by
  rw [boundary, whole_append, stream_append, List.length_append, boundary]

theorem rest_length (frames : List α) : rest encode (stream encode frames).length frames = [] := by
  rw [rest, whole_length, List.drop_length]

/-- A cut within the row that is not behind a whole frame goes through the next one. -/
theorem exists_torn {cut : Nat} {frames : List α} (hcut : cut ≤ (stream encode frames).length)
    (hne : boundary encode cut frames ≠ cut) : ∃ a more, rest encode cut frames = a :: more := by
  cases hr : rest encode cut frames with
  | cons a more => exact ⟨a, more, rfl⟩
  | nil =>
    have hall := whole_append_rest encode cut frames
    rw [hr, List.append_nil] at hall
    have hle := boundary_le encode cut frames
    rw [boundary, hall] at hle hne
    omega

theorem torn_nil_of_boundary {cut : Nat} {frames : List α} (h : boundary encode cut frames = cut) :
    torn encode cut frames = [] := by
  rw [torn, h, Nat.sub_self]
  cases (rest encode cut frames).head? with
  | none => rfl
  | some a => rfl

theorem torn_of_rest {cut : Nat} {frames more : List α} {a : α} (h : rest encode cut frames = a :: more) :
    torn encode cut frames = (encode a).take (cut - boundary encode cut frames) := by
  rw [torn, h]
  rfl

end Lib.Frames
