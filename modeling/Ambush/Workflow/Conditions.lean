import Ambush.Core.Value
import Ambush.Lib.Ints
import Ambush.Lib.PrefixCodes
import Ambush.Lib.TypedStores
import Mathlib.Data.List.Nodup
/-!
# The variables of a condition

`build_eval_context` flattens the trigger's fields, the fields of a webhook's body and the outputs of the steps into the names of one
typed store. No name of one kind is a name of another but for the trigger's own: a webhook field may have the name of one of them,
and is then replaced, which the store refuses where the trigger's value is no string.
-/
open Lib

namespace Ambush.Workflow

/-! ## Evalexpr -/

inductive ValueType where
  | String
  | Float
  | Int
  | Boolean
  | Empty
  deriving DecidableEq

inductive EvalValue where
  | String (s : String)
  | Float (q : Rat)
  | Int (n : Int)
  | Boolean (b : Bool)
  | Empty
  deriving DecidableEq

def EvalValue.type_of : EvalValue → ValueType
  | .String _ => .String
  | .Float _ => .Float
  | .Int _ => .Int
  | .Boolean _ => .Boolean
  | .Empty => .Empty

inductive WorkflowError where
  | ConditionError (text : String)
  deriving DecidableEq

/-- `HashMapContext`; an error is its text. A function is registered beside the variables. -/
structure Evalexpr (C : Type) where
  new : C
  get_value : C → String → Option EvalValue
  set_value : C → String → EvalValue → Except String C
  set_function : C → String → Except String C
  get_new : ∀ name, get_value new name = none
  set_ok : ∀ c name v, (∀ old ∈ get_value c name, old.type_of = v.type_of) →
    ∃ c', set_value c name v = .ok c' ∧ get_value c' name = some v ∧ ∀ other, other ≠ name → get_value c' other = get_value c other
  set_err : ∀ c name v, ∀ old ∈ get_value c name, old.type_of ≠ v.type_of → ∃ e, set_value c name v = .error e
  function_ok : ∀ c name, ∃ c', set_function c name = .ok c' ∧ get_value c' = get_value c

/-! ## Triggers and outputs -/

structure TriggerContext where
  text : String
  author : String
  channel_id : String
  timestamp : String
  emoji : String
  message_id : String
  is_reply : Bool
  webhook_fields : List (String × String)
  webhook_keys : (webhook_fields.map (·.1)).Nodup

inductive ActionDef where
  | SendMessage
  | SendDm
  | SetChannelTopic
  | AddReaction
  | CallWebhook
  | RequestApproval
  | Delay
  deriving DecidableEq

structure Step where
  id : String
  action : ActionDef
  deriving DecidableEq

structure WorkflowDef where
  steps : List Step

/-- What `dispatch_action` returns as a completed step's output, with the `reqwest` feature or without. -/
inductive Completed : ActionDef → Value → Prop
  | sent (event_id : String) : Completed .SendMessage (.object [("event_id", .string event_id), ("sent", .bool true)])
  | added (status : Nat) (response : Value) :
      Completed .AddReaction (.object [("added", .bool true), ("response", response), ("status", .integer status)])
  | not_added : Completed .AddReaction (.object [("added", .bool false), ("skipped", .bool true)])
  | called (status : Nat) (body : String) : Completed .CallWebhook (.object [("body", .string body), ("status", .integer status)])
  | not_called : Completed .CallWebhook (.object [("body", .null), ("skipped", .bool true), ("status", .integer 0)])
  | slept (secs : Nat) : Completed .Delay (.object [("slept_secs", .integer secs)])

/-- Outputs of completed steps, under the steps' ids. -/
structure StepOutputs (workflow : WorkflowDef) (step_outputs : List (String × Value)) : Prop where
  keys : (step_outputs.map (·.1)).Nodup
  completed : ∀ p ∈ step_outputs, ∃ step ∈ workflow.steps, step.id = p.1 ∧ Completed step.action p.2

/-! ## The context -/

section
variable {C : Type} (evalexpr : Evalexpr C) (as_f64 : Int → Rat) (json_text : Value → String)

/-- `json_value_to_eval`: `as_f64` is the double nearest to an integer over `i64`, `json_text` the text of an array or an object. -/
def json_value_to_eval : Value → EvalValue
  | .string s => .String s
  | .bool b => .Boolean b
  | .integer n => if i64Min ≤ n ∧ n ≤ i64Max then .Int n else .Float (as_f64 n)
  | .float q => .Float q
  | .null => .Empty
  | v => .String (json_text v)

def set (ctx : C) (name : String) (v : EvalValue) : Except WorkflowError C :=
  (evalexpr.set_value ctx name v).mapError WorkflowError.ConditionError

def starts_with (s pat : String) : Bool := pat.toList.isPrefixOf s.toList

def FUNCTIONS : List String := ["str_contains", "str_starts_with", "str_ends_with", "str_len"]

def trigger_fields (trigger_ctx : TriggerContext) : List (String × String) :=
  [("trigger_text", trigger_ctx.text), ("trigger_author", trigger_ctx.author), ("trigger_channel_id", trigger_ctx.channel_id),
    ("trigger_timestamp", trigger_ctx.timestamp), ("trigger_emoji", trigger_ctx.emoji), ("trigger_message_id", trigger_ctx.message_id)]

def step_variable (step_id field : String) : String := "steps_" ++ step_id ++ "_output_" ++ field

def build_eval_context (trigger_ctx : TriggerContext) (step_outputs : List (String × Value)) : Except WorkflowError C := do
  let ctx ← FUNCTIONS.foldlM (fun ctx name => (evalexpr.set_function ctx name).mapError WorkflowError.ConditionError) evalexpr.new
  let ctx ← trigger_ctx.webhook_fields.foldlM (fun ctx (key, val) =>
    if starts_with key "trigger_" || starts_with key "steps_" then .ok ctx
    else set evalexpr ctx ("trigger_" ++ key) (.String val)) ctx
  let ctx ← (trigger_fields trigger_ctx).foldlM (fun ctx (name, val) => set evalexpr ctx name (.String val)) ctx
  let ctx ← set evalexpr ctx "trigger_is_reply" (.Boolean trigger_ctx.is_reply)
  step_outputs.foldlM (fun ctx (step_id, output) =>
    match output with
    | .object map => map.foldlM (fun ctx (field, val) =>
        set evalexpr ctx (step_variable step_id field) (json_value_to_eval as_f64 json_text val)) ctx
    | _ => .ok ctx) ctx

end

/-! ## The assignments -/

section
variable (as_f64 : Int → Rat) (json_text : Value → String)

def webhook_assignments (trigger_ctx : TriggerContext) : List (String × EvalValue) :=
  (trigger_ctx.webhook_fields.filter (fun f => !(starts_with f.1 "trigger_" || starts_with f.1 "steps_"))).map
    (fun f => ("trigger_" ++ f.1, .String f.2))

def field_assignments (trigger_ctx : TriggerContext) : List (String × EvalValue) :=
  (trigger_fields trigger_ctx).map (fun f => (f.1, .String f.2))

/-- The fields of an output that is an object. -/
def fields_of : Value → List (String × Value)
  | .object map => map
  | _ => []

def output_assignments (step_outputs : List (String × Value)) : List (String × EvalValue) :=
  step_outputs.flatMap (fun p => (fields_of p.2).map (fun f => (step_variable p.1 f.1, json_value_to_eval as_f64 json_text f.2)))

def assignments (trigger_ctx : TriggerContext) (step_outputs : List (String × Value)) : List (String × EvalValue) :=
  webhook_assignments trigger_ctx ++ (field_assignments trigger_ctx ++
    (("trigger_is_reply", .Boolean trigger_ctx.is_reply) :: output_assignments as_f64 json_text step_outputs))

variable {C : Type} (evalexpr : Evalexpr C)

/-- The variables of a context. -/
def store : TypedStore C String EvalValue WorkflowError ValueType where
  get := evalexpr.get_value
  set := set evalexpr
  type_of := EvalValue.type_of
  set_ok c name v h := by
    obtain ⟨c', hset, hget⟩ := evalexpr.set_ok c name v h
    exact ⟨c', by rw [set, hset]; rfl, hget⟩
  set_err c name v old hold htype := by
    obtain ⟨e, he⟩ := evalexpr.set_err c name v old hold htype
    exact ⟨.ConditionError e, by rw [set, he]; rfl⟩

theorem webhook_loop (ctx : C) (fields : List (String × String)) :
    fields.foldlM (fun ctx (f : String × String) => if starts_with f.1 "trigger_" || starts_with f.1 "steps_" then Except.ok ctx
        else set evalexpr ctx ("trigger_" ++ f.1) (.String f.2)) ctx =
      (store evalexpr).assign ctx ((fields.filter (fun f => !(starts_with f.1 "trigger_" || starts_with f.1 "steps_"))).map
        (fun f => ("trigger_" ++ f.1, .String f.2))) := by
  induction fields generalizing ctx with
  | nil => rfl
  | cons f fields ih =>
    rw [List.foldlM_cons, List.filter_cons]
    cases hskip : starts_with f.1 "trigger_" || starts_with f.1 "steps_" with
    | true =>
      rw [if_pos rfl, if_neg (by decide)]
      exact ih ctx
    | false =>
      rw [if_neg (by decide), if_pos (by decide), List.map_cons, TypedStore.assign, List.foldlM_cons]
      exact bind_congr fun c => ih c

theorem map_loop {α : Type} (ctx : C) (name : α → String) (value : α → EvalValue) (l : List α) :
    l.foldlM (fun ctx a => set evalexpr ctx (name a) (value a)) ctx =
      (store evalexpr).assign ctx (l.map (fun a => (name a, value a))) := by
  rw [TypedStore.assign, List.foldlM_map]
  rfl

theorem output_loop (ctx : C) (step_outputs : List (String × Value)) :
    step_outputs.foldlM (fun ctx (p : String × Value) =>
        match p.2 with
        | .object map => map.foldlM (fun ctx (f : String × Value) =>
            set evalexpr ctx (step_variable p.1 f.1) (json_value_to_eval as_f64 json_text f.2)) ctx
        | _ => Except.ok ctx) ctx =
      (store evalexpr).assign ctx (output_assignments as_f64 json_text step_outputs) := by
  induction step_outputs generalizing ctx with
  | nil => rfl
  | cons p step_outputs ih =>
    rw [List.foldlM_cons, output_assignments, List.flatMap_cons, TypedStore.assign_append]
    have hfirst : (match p.2 with
        | .object map => map.foldlM (fun ctx (f : String × Value) =>
            set evalexpr ctx (step_variable p.1 f.1) (json_value_to_eval as_f64 json_text f.2)) ctx
        | _ => Except.ok ctx) =
        (store evalexpr).assign ctx ((fields_of p.2).map (fun f => (step_variable p.1 f.1, json_value_to_eval as_f64 json_text f.2))) := by
      cases hp : p.2 with
      | object map => exact map_loop evalexpr ctx _ _ map
      | _ => rfl
    rw [hfirst]
    exact bind_congr fun c => ih c

theorem bind_eq {E A B : Type} {x y : Except E A} {f g : A → Except E B} (hxy : x = y) (hfg : ∀ a, f a = g a) : (x >>= f) = (y >>= g) := by
  rw [hxy]
  exact bind_congr hfg

/-- The context is built by the assignments, from one without variables. -/
theorem build_eval_context_eq (trigger_ctx : TriggerContext) (step_outputs : List (String × Value)) :
    ∃ ctx, (∀ name, evalexpr.get_value ctx name = none) ∧
      build_eval_context evalexpr as_f64 json_text trigger_ctx step_outputs =
        (store evalexpr).assign ctx (assignments as_f64 json_text trigger_ctx step_outputs) := by
  have hfunctions : ∀ (names : List String) (c : C), ∃ c', names.foldlM
      (fun ctx name => (evalexpr.set_function ctx name).mapError WorkflowError.ConditionError) c = .ok c' ∧
        evalexpr.get_value c' = evalexpr.get_value c := by
    intro names
    induction names with
    | nil => exact fun c => ⟨c, rfl, rfl⟩
    | cons name names ih =>
      intro c
      obtain ⟨d, hd, hget⟩ := evalexpr.function_ok c name
      obtain ⟨c', hc', hget'⟩ := ih d
      refine ⟨c', ?_, hget'.trans hget⟩
      rw [List.foldlM_cons, hd]
      exact hc'
  obtain ⟨ctx, hctx, hget⟩ := hfunctions FUNCTIONS evalexpr.new
  refine ⟨ctx, fun name => by rw [hget, evalexpr.get_new], ?_⟩
  rw [build_eval_context, hctx, assignments, TypedStore.assign_append]
  refine (pure_bind ctx _).trans ?_
  refine bind_eq (webhook_loop evalexpr ctx trigger_ctx.webhook_fields) fun c => ?_
  rw [TypedStore.assign_append]
  refine bind_eq (map_loop evalexpr c _ _ (trigger_fields trigger_ctx)) fun c => ?_
  rw [TypedStore.assign, List.foldlM_cons]
  exact bind_congr fun c => output_loop as_f64 json_text evalexpr c step_outputs
end

/-! ## Names -/

/-- The fields of the outputs. -/
def output_fields : List String := ["event_id", "sent", "added", "response", "status", "skipped", "body", "slept_secs"]

theorem Completed.fields {action : ActionDef} {output : Value} (h : Completed action output) :
    ((fields_of output).map (·.1)).Nodup ∧ ∀ f ∈ fields_of output, f.1 ∈ output_fields := by
  cases h <;> exact ⟨by simp [fields_of], by simp [fields_of, output_fields]⟩

/-- Read from its end, no field's name is the start of another's with what stands before it. -/
theorem output_fields_prefixFree :
    PrefixFree (fun f : { f : String // f ∈ output_fields } => ("_output_" ++ f.1).toList.reverse) := by
  have hall : ∀ f ∈ output_fields, ∀ g ∈ output_fields, ("_output_" ++ f).toList.reverse <+: ("_output_" ++ g).toList.reverse → f = g := by
    decide +kernel
  exact fun f g h => Subtype.ext (hall f.1 f.2 g.1 g.2 h)

theorem step_variable_inj {s s' f f' : String} (hf : f ∈ output_fields) (hf' : f' ∈ output_fields)
    (h : step_variable s f = step_variable s' f') : s = s' ∧ f = f' := by
  have hends : ∀ s f, (step_variable s f).toList.reverse = ("_output_" ++ f).toList.reverse ++ ("steps_" ++ s).toList.reverse := by
    intro s f
    rw [step_variable, String.append_assoc, String.toList_append, List.reverse_append]
  have hrev := congrArg (fun t : String => t.toList.reverse) h
  rw [hends, hends] at hrev
  obtain ⟨hfield, hrest⟩ := output_fields_prefixFree.split (a := ⟨f, hf⟩) (b := ⟨f', hf'⟩) hrev
  refine ⟨?_, congrArg Subtype.val hfield⟩
  have hstep := List.reverse_injective hrest
  rw [String.toList_append, String.toList_append] at hstep
  exact String.toList_inj.1 (List.append_cancel_left hstep)

/-- The names of outputs start with another letter than the trigger's. -/
theorem step_variable_head (s f : String) : (step_variable s f).toList.head? = some 's' := by
  rw [step_variable, String.toList_append, String.toList_append, String.toList_append]
  rfl

theorem trigger_head (key : String) : ("trigger_" ++ key).toList.head? = some 't' := by
  rw [String.toList_append]
  rfl

/-! ## The values -/

section
variable {C : Type} (evalexpr : Evalexpr C) (as_f64 : Int → Rat) (json_text : Value → String)

/-- The trigger's variables have the trigger's own values, and every output's field its value. -/
structure Resolved (trigger_ctx : TriggerContext) (step_outputs : List (String × Value)) (ctx : C) : Prop where
  text : evalexpr.get_value ctx "trigger_text" = some (.String trigger_ctx.text)
  author : evalexpr.get_value ctx "trigger_author" = some (.String trigger_ctx.author)
  channel_id : evalexpr.get_value ctx "trigger_channel_id" = some (.String trigger_ctx.channel_id)
  timestamp : evalexpr.get_value ctx "trigger_timestamp" = some (.String trigger_ctx.timestamp)
  emoji : evalexpr.get_value ctx "trigger_emoji" = some (.String trigger_ctx.emoji)
  message_id : evalexpr.get_value ctx "trigger_message_id" = some (.String trigger_ctx.message_id)
  is_reply : evalexpr.get_value ctx "trigger_is_reply" = some (.Boolean trigger_ctx.is_reply)
  outputs : ∀ p ∈ step_outputs, ∀ f ∈ fields_of p.2,
    evalexpr.get_value ctx (step_variable p.1 f.1) = some (json_value_to_eval as_f64 json_text f.2)

variable {as_f64 json_text} {trigger_ctx : TriggerContext} {workflow : WorkflowDef} {step_outputs : List (String × Value)}

theorem webhook_name {p : String × EvalValue} (h : p ∈ webhook_assignments trigger_ctx) :
    p.1.toList.head? = some 't' ∧ p.2.type_of = .String ∧ ∃ f ∈ trigger_ctx.webhook_fields, p.1 = "trigger_" ++ f.1 := by
  obtain ⟨f, hf, rfl⟩ := List.mem_map.1 h
  exact ⟨trigger_head f.1, rfl, f, (List.mem_filter.1 hf).1, rfl⟩

def field_names : List String :=
  ["trigger_text", "trigger_author", "trigger_channel_id", "trigger_timestamp", "trigger_emoji", "trigger_message_id"]

theorem field_name {p : String × EvalValue} (h : p ∈ field_assignments trigger_ctx) :
    p.1.toList.head? = some 't' ∧ p.2.type_of = .String ∧ p.1 ≠ "trigger_is_reply" := by
  obtain ⟨f, hf, rfl⟩ := List.mem_map.1 h
  have hall : ∀ name ∈ field_names, name.toList.head? = some 't' ∧ name ≠ "trigger_is_reply" := by decide
  obtain ⟨hhead, hne⟩ := hall f.1 (List.mem_map.2 ⟨f, hf, rfl⟩)
  exact ⟨hhead, rfl, hne⟩

theorem mem_output_assignments {p : String × EvalValue} : p ∈ output_assignments as_f64 json_text step_outputs ↔
    ∃ s ∈ step_outputs, ∃ f ∈ fields_of s.2, p = (step_variable s.1 f.1, json_value_to_eval as_f64 json_text f.2) := by
  rw [output_assignments, List.mem_flatMap]
  refine exists_congr fun s => and_congr_right' ?_
  rw [List.mem_map]
  exact exists_congr fun f => and_congr_right' eq_comm

theorem output_name {p : String × EvalValue} (h : p ∈ output_assignments as_f64 json_text step_outputs) :
    p.1.toList.head? = some 's' := by
  obtain ⟨s, -, f, -, rfl⟩ := mem_output_assignments.1 h
  exact step_variable_head s.1 f.1

/-- A variable of an output is assigned once. -/
theorem output_once (h : StepOutputs workflow step_outputs) {p q : String × EvalValue}
    (hp : p ∈ output_assignments as_f64 json_text step_outputs) (hq : q ∈ output_assignments as_f64 json_text step_outputs)
    (hname : p.1 = q.1) : p.2 = q.2 := by
  obtain ⟨s, hs, f, hf, rfl⟩ := mem_output_assignments.1 hp
  obtain ⟨s', hs', f', hf', rfl⟩ := mem_output_assignments.1 hq
  obtain ⟨step, -, -, hcompleted⟩ := h.completed s hs
  obtain ⟨step', -, -, hcompleted'⟩ := h.completed s' hs'
  obtain ⟨hid, hfield⟩ := step_variable_inj (hcompleted.fields.2 f hf) (hcompleted'.fields.2 f' hf') hname
  obtain rfl := List.inj_on_of_nodup_map h.keys hs hs' hid
  rw [List.inj_on_of_nodup_map hcompleted.fields.1 hf hf' hfield]

/-- No two assignments give one name different types, unless a webhook field is named as the one field that is no string. -/
theorem assignments_agree (h : StepOutputs workflow step_outputs) (hreply : "is_reply" ∉ trigger_ctx.webhook_fields.map (·.1)) :
    ∀ p ∈ assignments as_f64 json_text trigger_ctx step_outputs, ∀ q ∈ assignments as_f64 json_text trigger_ctx step_outputs,
      p.1 = q.1 → p.2.type_of = q.2.type_of := by
  have hwebhook : ∀ p ∈ webhook_assignments trigger_ctx, p.1 ≠ "trigger_is_reply" := fun p hp heq => by
    obtain ⟨-, -, f, hf, hname⟩ := webhook_name hp
    rw [hname] at heq
    have hkey : f.1 = "is_reply" := (String.append_right_inj "trigger_").1 heq
    exact hreply (List.mem_map.2 ⟨f, hf, hkey⟩)
  -- a name of a string of the trigger, the name of its other field, or one of an output
  have hkinds : ∀ p ∈ assignments as_f64 json_text trigger_ctx step_outputs,
      (p.1.toList.head? = some 't' ∧ p.1 ≠ "trigger_is_reply" ∧ p.2.type_of = .String) ∨
      (p.1.toList.head? = some 't' ∧ p.1 = "trigger_is_reply" ∧ p.2.type_of = .Boolean) ∨
      (p.1.toList.head? = some 's' ∧ p ∈ output_assignments as_f64 json_text step_outputs) := by
    intro p hp
    rw [assignments, List.mem_append, List.mem_append, List.mem_cons] at hp
    rcases hp with hp | hp | rfl | hp
    · exact .inl ⟨(webhook_name hp).1, hwebhook p hp, (webhook_name hp).2.1⟩
    · exact .inl ⟨(field_name hp).1, (field_name hp).2.2, (field_name hp).2.1⟩
    · exact .inr (.inl ⟨(by decide : "trigger_is_reply".toList.head? = some 't'), rfl, rfl⟩)
    · exact .inr (.inr ⟨output_name hp, hp⟩)
  intro p hp q hq hname
  rcases hkinds p hp with ⟨hhead, hne, htype⟩ | ⟨hhead, heq, htype⟩ | ⟨hhead, hout⟩ <;>
    rcases hkinds q hq with ⟨hhead', hne', htype'⟩ | ⟨hhead', heq', htype'⟩ | ⟨hhead', hout'⟩
  · rw [htype, htype']
  · exact absurd (hname.trans heq') hne
  · rw [hname, hhead'] at hhead
    cases hhead
  · exact absurd (hname.symm.trans heq) hne'
  · rw [htype, htype']
  · rw [hname, hhead'] at hhead
    cases hhead
  · rw [hname, hhead'] at hhead
    cases hhead
  · rw [hname, hhead'] at hhead
    cases hhead
  · rw [output_once h hout hout' hname]

theorem latest_output (h : StepOutputs workflow step_outputs) {s f : String × Value} (hs : s ∈ step_outputs) (hf : f ∈ fields_of s.2) :
    latest (step_variable s.1 f.1) (assignments as_f64 json_text trigger_ctx step_outputs) =
      some (json_value_to_eval as_f64 json_text f.2) := by
  have hmem := mem_output_assignments.2 ⟨s, hs, f, hf, (rfl : (step_variable s.1 f.1, json_value_to_eval as_f64 json_text f.2) = _)⟩
  have hlatest := latest_of_mem hmem (fun p hp hname => output_once h hp hmem hname)
  rw [assignments, latest_append, latest_append, latest, hlatest]
  rfl

theorem latest_none_output {name : String} (h : name.toList.head? = some 't') :
    latest name (output_assignments as_f64 json_text step_outputs) = none := by
  refine latest_eq_none.2 fun p hp heq => ?_
  rw [← heq, output_name hp] at h
  cases h

theorem latest_field {name val : String} (h : (name, val) ∈ trigger_fields trigger_ctx) :
    latest name (assignments as_f64 json_text trigger_ctx step_outputs) = some (.String val) := by
  have hmem : (name, EvalValue.String val) ∈ field_assignments trigger_ctx := List.mem_map.2 ⟨_, h, rfl⟩
  obtain ⟨hhead, -, hne⟩ := field_name hmem
  have hnodup : ((trigger_fields trigger_ctx).map (·.1)).Nodup := (by decide : field_names.Nodup)
  have hlatest : latest name (field_assignments trigger_ctx) = some (.String val) := by
    refine latest_of_mem hmem fun p hp hname => ?_
    obtain ⟨f, hf, rfl⟩ := List.mem_map.1 hp
    rw [List.inj_on_of_nodup_map hnodup hf h hname]
  rw [assignments, latest_append, latest_append, latest, latest_none_output hhead, if_neg (Ne.symm hne), hlatest]
  rfl

theorem latest_is_reply : latest "trigger_is_reply" (assignments as_f64 json_text trigger_ctx step_outputs) =
    some (.Boolean trigger_ctx.is_reply) := by
  rw [assignments, latest_append, latest_append, latest, latest_none_output (by decide), if_pos rfl]
  rfl

/-- A webhook field of that name leaves a string where the store is then given a boolean. -/
theorem build_eval_context_err (hreply : "is_reply" ∈ trigger_ctx.webhook_fields.map (·.1)) :
    ∃ e, build_eval_context evalexpr as_f64 json_text trigger_ctx step_outputs = .error e := by
  obtain ⟨ctx, hnew, hbuild⟩ := build_eval_context_eq as_f64 json_text evalexpr trigger_ctx step_outputs
  obtain ⟨f, hf, hkey⟩ := List.mem_map.1 hreply
  have hstrings : ∀ p ∈ webhook_assignments trigger_ctx ++ field_assignments trigger_ctx, p.2.type_of = .String := fun p hp =>
    (List.mem_append.1 hp).elim (fun hp => (webhook_name hp).2.1) (fun hp => (field_name hp).2.1)
  obtain ⟨c, hassign, hget⟩ := TypedStore.assign_new (s := store evalexpr) (fun p hp q hq _ => (hstrings p hp).trans (hstrings q hq).symm) hnew
  have hmem : ("trigger_is_reply", EvalValue.String f.2) ∈ webhook_assignments trigger_ctx ++ field_assignments trigger_ctx := by
    refine List.mem_append_left _ (List.mem_map.2 ⟨f, List.mem_filter.2 ⟨hf, ?_⟩, by rw [hkey]; rfl⟩)
    rw [hkey]
    decide
  -- the string that is there
  obtain ⟨v, hv⟩ : ∃ v, latest "trigger_is_reply" (webhook_assignments trigger_ctx ++ field_assignments trigger_ctx) = some v := by
    cases hlatest : latest "trigger_is_reply" (webhook_assignments trigger_ctx ++ field_assignments trigger_ctx) with
    | none => exact absurd rfl (latest_eq_none.1 hlatest _ hmem)
    | some v => exact ⟨v, rfl⟩
  have hold : (store evalexpr).get c "trigger_is_reply" = some v := by rw [hget, hv]
  obtain ⟨e, he⟩ := TypedStore.assign_err (p := ("trigger_is_reply", EvalValue.Boolean trigger_ctx.is_reply))
    (l := output_assignments as_f64 json_text step_outputs) hold (by
      have htype : (store evalexpr).type_of v = ValueType.String := hstrings _ (mem_of_latest hv)
      rw [htype]
      exact fun h => by cases h)
  refine ⟨e, ?_⟩
  rw [hbuild, assignments, ← List.append_assoc, TypedStore.assign_append, hassign]
  exact he

/-- The context is built with every variable's own value exactly when no webhook field is named `is_reply`. -/
theorem build_eval_context_iff (evalexpr : Evalexpr C) (as_f64 : Int → Rat) (json_text : Value → String) (workflow : WorkflowDef)
    (trigger_ctx : TriggerContext) (step_outputs : List (String × Value)) (h : StepOutputs workflow step_outputs) :
    (∃ ctx, build_eval_context evalexpr as_f64 json_text trigger_ctx step_outputs = .ok ctx ∧
        Resolved evalexpr as_f64 json_text trigger_ctx step_outputs ctx) ↔
      "is_reply" ∉ trigger_ctx.webhook_fields.map (·.1) := by
  constructor
  · rintro ⟨ctx, hok, -⟩ hreply
    obtain ⟨e, he⟩ : ∃ e, build_eval_context evalexpr as_f64 json_text trigger_ctx step_outputs = .error e :=
      build_eval_context_err evalexpr hreply
    rw [hok] at he
    cases he
  · intro hreply
    obtain ⟨ctx, hnew, hbuild⟩ := build_eval_context_eq as_f64 json_text evalexpr trigger_ctx step_outputs
    obtain ⟨c, hassign, hget⟩ := TypedStore.assign_new (s := store evalexpr) (assignments_agree h hreply) hnew
    have hvalue : ∀ {name v}, latest name (assignments as_f64 json_text trigger_ctx step_outputs) = some v →
        evalexpr.get_value c name = some v := fun hlatest => (hget _).trans hlatest
    refine ⟨c, hbuild.trans hassign, ?_⟩
    exact {
      text := hvalue (latest_field (by simp [trigger_fields]))
      author := hvalue (latest_field (by simp [trigger_fields]))
      channel_id := hvalue (latest_field (by simp [trigger_fields]))
      timestamp := hvalue (latest_field (by simp [trigger_fields]))
      emoji := hvalue (latest_field (by simp [trigger_fields]))
      message_id := hvalue (latest_field (by simp [trigger_fields]))
      is_reply := hvalue latest_is_reply
      outputs := fun s hs f hf => hvalue (latest_output h hs hf) }

end

/-! ## A map of variables -/

/-- The variables as a map; functions are not kept. -/
def Evalexpr.plain : Evalexpr (String → Option EvalValue) where
  new _ := none
  get_value c name := c name
  set_value c name v :=
    if (c name).any (fun old => old.type_of ≠ v.type_of) then .error "type" else .ok (fun other => if other = name then some v else c other)
  set_function c _ := .ok c
  get_new _ := rfl
  set_ok c name v h := by
    refine ⟨fun other => if other = name then some v else c other, if_neg ?_, if_pos rfl, fun other hne => if_neg hne⟩
    rw [Option.any_eq_true]
    rintro ⟨old, hold, hne⟩
    exact of_decide_eq_true hne (h old hold)
  set_err c name v old hold hne := by
    refine ⟨"type", if_pos ?_⟩
    rw [Option.any_eq_true]
    exact ⟨old, hold, decide_eq_true hne⟩
  function_ok c _ := ⟨c, rfl, rfl⟩

/-- A webhook's trigger with a field of its body. -/
def webhook_trigger (key val : String) : TriggerContext :=
  ⟨"", "", "c", "", "", "", false, [(key, val)], List.nodup_singleton _⟩

def delay_workflow : WorkflowDef := ⟨[⟨"wait", .Delay⟩]⟩

theorem build_eval_context_spoofed_text :
    ∃ ctx, build_eval_context Evalexpr.plain (fun n => n) Value.text (webhook_trigger "text" "spoofed")
        [("wait", .object [("slept_secs", .integer 5)])] = .ok ctx ∧
      Resolved Evalexpr.plain (fun n => n) Value.text (webhook_trigger "text" "spoofed") [("wait", .object [("slept_secs", .integer 5)])] ctx := by
  refine (build_eval_context_iff Evalexpr.plain (fun n => n) Value.text delay_workflow (webhook_trigger "text" "spoofed")
    [("wait", .object [("slept_secs", .integer 5)])] ⟨List.nodup_singleton _, fun p hp => ?_⟩).2 (by decide)
  obtain rfl := List.mem_singleton.1 hp
  exact ⟨⟨"wait", .Delay⟩, List.mem_singleton.2 rfl, rfl, .slept 5⟩

/-- A webhook whose body has a field `is_reply`: no condition of its run can be evaluated. -/
theorem build_eval_context_is_reply :
    build_eval_context Evalexpr.plain (fun n => n) Value.text (webhook_trigger "is_reply" "x") [] = .error (.ConditionError "type") := by
  rfl

end Ambush.Workflow
