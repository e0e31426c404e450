import Ambush.Core.Canonical
import Ambush.Lib.Results
import Ambush.Lib.Substrings
import Ambush.Policy.Gate
/-!
# Markers

The body of a card: a marker line, a line for a human, and JSON in a fence. The parser looks for the fences as substrings; it finds
those that `build_content` wrote, since the human line holds no line break and the JSON none that is followed by a fence.
-/
open Lib

namespace Ambush.PerchWire

inductive CardKind where
  | Finding
  | Escalation
  | Hold
  | Verdict
  | Receipt
  | Lease
  | Rollback
  deriving DecidableEq

namespace CardKind

def marker : CardKind → String
  | .Finding => "<!-- swarm:finding:v1 -->"
  | .Escalation => "<!-- swarm:escalation:v1 -->"
  | .Hold => "<!-- swarm:hold:v1 -->"
  | .Verdict => "<!-- swarm:verdict:v1 -->"
  | .Receipt => "<!-- swarm:receipt:v1 -->"
  | .Lease => "<!-- swarm:lease:v1 -->"
  | .Rollback => "<!-- swarm:rollback:v1 -->"

def fence_info : CardKind → String
  | .Finding => "swarm:finding:v1"
  | .Escalation => "swarm:escalation:v1"
  | .Hold => "swarm:hold:v1"
  | .Verdict => "swarm:verdict:v1"
  | .Receipt => "swarm:receipt:v1"
  | .Lease => "swarm:lease:v1"
  | .Rollback => "swarm:rollback:v1"

def ALL : List CardKind := [.Finding, .Escalation, .Hold, .Verdict, .Receipt, .Lease, .Rollback]

theorem mem_all (kind : CardKind) : kind ∈ ALL := by cases kind <;> decide

/-- The kind whose marker is the whole first line. -/
def route (content : List Char) : Option CardKind :=
  let first_line := (content.takeWhile (· ≠ '\n')).rdropWhile (· = '\r')
  ALL.find? (fun kind => first_line = kind.marker.toList)

/-- A marker is one line. -/
theorem marker_line (kind : CardKind) : '\n' ∉ kind.marker.toList ∧ kind.marker.toList.rdropWhile (· = '\r') = kind.marker.toList := by
  cases kind <;> decide

/-- The first of the kinds with its marker is the kind. -/
theorem find_marker (kind : CardKind) : ALL.find? (fun k => kind.marker.toList = k.marker.toList) = some kind := by
  cases kind <;> decide

theorem route_marker (kind : CardKind) (rest : List Char) : route (kind.marker.toList ++ '\n' :: rest) = some kind := by
  obtain ⟨hline, hend⟩ := marker_line kind
  have hfirst : (kind.marker.toList ++ '\n' :: rest).takeWhile (· ≠ '\n') = kind.marker.toList := by
    rw [List.takeWhile_append_of_pos, List.takeWhile_cons_of_neg (by simp), List.append_nil]
    intro c hc
    rw [decide_eq_true_eq]
    rintro rfl
    exact hline hc
  rw [route, hfirst, hend, find_marker]

end CardKind

def CARD_CONTENT_MAX_BYTES : Nat := 192 * 1024

structure ContentParts where
  kind : CardKind
  human_line : List Char
  json : List Char
  deriving DecidableEq

inductive MarkerError where
  | NoMarker
  | MissingHumanLine
  | MalformedFence (which : String)
  | TooLarge (found limit : Nat)
  deriving DecidableEq

/-- `str::trim`. -/
def trimmed (s : List Char) : List Char := trim Policy.is_whitespace s

def FENCE : List Char := "```".toList

/-- What opens the fence of a kind. -/
def fence_open (kind : CardKind) : List Char := FENCE ++ kind.fence_info.toList ++ ['\n']

/-- The five lines of a body. -/
def body (kind : CardKind) (human_line json : List Char) : List Char :=
  kind.marker.toList ++ '\n' :: (human_line ++ '\n' :: '\n' :: (fence_open kind ++ (json ++ '\n' :: FENCE)))

def build_content (kind : CardKind) (human_line json : List Char) : Except MarkerError (List Char) :=
  let human_line := trimmed human_line
  if human_line = [] ∨ '\n' ∈ human_line then .error .MissingHumanLine
  else
    let text := body kind human_line (trimmed json)
    let found := (String.ofList text).utf8ByteSize
    if CARD_CONTENT_MAX_BYTES < found then .error (.TooLarge found CARD_CONTENT_MAX_BYTES) else .ok text

def parse_content (content : List Char) : Except MarkerError ContentParts :=
  match CardKind.route content with
  | none => .error .NoMarker
  | some kind =>
    match Canonical.split_once '\n' content with
    | none => .error .MissingHumanLine
    | some (_, rest) =>
      let (human_line, after_human) := (Canonical.split_once '\n' rest).getD (rest, [])
      let human_line := trimmed human_line
      if human_line = [] then .error .MissingHumanLine
      else
        match str_find (fence_open kind) after_human with
        | none => .error (.MalformedFence "open")
        | some open_at =>
          let json_start := open_at + (fence_open kind).length
          match str_find ('\n' :: FENCE) (after_human.drop json_start) with
          | none => .error (.MalformedFence "close")
          | some json_len => .ok ⟨kind, human_line, trimmed ((after_human.drop json_start).take json_len)⟩

theorem split_once_append {sep : Char} {front : List Char} (h : sep ∉ front) (rest : List Char) :
    Canonical.split_once sep (front ++ sep :: rest) = some (front, rest) := by
  have hfront : ∀ c ∈ front, (decide (c ≠ sep)) = true := fun c hc => by
    rw [decide_eq_true_eq]
    rintro rfl
    exact h hc
  rw [Canonical.split_once, if_pos (List.mem_append_right _ List.mem_cons_self), List.takeWhile_append_of_pos hfront,
    List.dropWhile_append_of_pos hfront, List.takeWhile_cons_of_neg (by simp), List.dropWhile_cons_of_neg (by simp), List.append_nil]
  rfl

/-- A body whose human line is trimmed and one line, and whose JSON is trimmed and holds no closing fence, is read as it was written. -/
theorem parse_body {kind : CardKind} {human_line json : List Char} (hhuman : human_line ≠ []) (hline : '\n' ∉ human_line)
    (htrim : trimmed human_line = human_line) (hjson : trimmed json = json) (hfence : ¬ '\n' :: FENCE <:+: json) :
    parse_content (body kind human_line json) = .ok ⟨kind, human_line, json⟩ := by
  have hopen : str_find (fence_open kind) ('\n' :: (fence_open kind ++ (json ++ '\n' :: FENCE))) = some 1 := by
    have hhead : fence_open kind = '`' :: (fence_open kind).tail := rfl
    have hself := str_find_self (fence_open kind) (json ++ '\n' :: FENCE)
    rw [hhead] at hself ⊢
    rw [str_find_cons_of_ne (by decide), hself]
    rfl
  have hdrop : ('\n' :: (fence_open kind ++ (json ++ '\n' :: FENCE))).drop (1 + (fence_open kind).length) = json ++ '\n' :: FENCE := by
    rw [Nat.add_comm, List.drop_succ_cons, List.drop_left]
  have hclose : str_find ('\n' :: FENCE) (json ++ '\n' :: FENCE) = some json.length := by
    have hfind := str_find_of_not_infix (by decide) hfence []
    rwa [List.append_nil] at hfind
  unfold parse_content
  rw [body, CardKind.route_marker]
  simp only [split_once_append (CardKind.marker_line kind).1, split_once_append hline, Option.getD_some, htrim, if_neg hhuman, hopen, hdrop,
    hclose, List.take_left', hjson]

/-- What was built is read back, and what is read has the kind of its first line. -/
theorem card_round_trip :
    (∀ (kind : CardKind) (human_line json text : List Char), ¬ '\n' :: FENCE <:+: json →
      build_content kind human_line json = .ok text → parse_content text = .ok ⟨kind, trimmed human_line, trimmed json⟩) ∧
    ∀ (content : List Char) (parts : ContentParts), parse_content content = .ok parts → CardKind.route content = some parts.kind := by
  constructor
  · intro kind human_line json text hfence h
    obtain ⟨hhuman, h⟩ := ok_guard_iff.1 h
    obtain ⟨-, h⟩ := ok_guard_iff.1 h
    rw [not_or] at hhuman
    rw [← Except.ok.inj h]
    exact parse_body hhuman.1 hhuman.2 (trim_trim _ _) (trim_trim _ _) fun hin => hfence (hin.trans (infix_trim _ json))
  · intro content parts h
    unfold parse_content at h
    split at h
    · cases h
    · next kind hkind =>
      rw [hkind]
      split at h
      · cases h
      · obtain ⟨-, h⟩ := ok_guard_iff.1 h
        split at h
        · cases h
        · dsimp only at h
          split at h
          · cases h
          · exact congrArg (fun p : ContentParts => some p.kind) (Except.ok.inj h)

/-- The body of the round trip test. -/
theorem card_round_trip_hold : parse_content (body .Hold "hold h_1".toList "\x7b\x7d".toList) = .ok ⟨.Hold, "hold h_1".toList, "\x7b\x7d".toList⟩ := by
  have hbuild : build_content .Hold " hold h_1".toList "\x7b\x7d\n".toList = .ok (body .Hold "hold h_1".toList "\x7b\x7d".toList) := by
    decide +kernel
  exact card_round_trip.1 .Hold " hold h_1".toList "\x7b\x7d\n".toList _ (by decide) hbuild

end Ambush.PerchWire
