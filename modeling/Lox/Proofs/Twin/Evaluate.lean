import Lox.Proofs.Machine.Parallel
import Lox.Proofs.Twin.Operations

set_option autoImplicit false

/-! Code that is alike does the same on machines that do the same: each step does, and so do all parts of
the code, and the functions that it calls, by induction on the bound. The interpreter here is the one with
the quiet guard, so that nothing is ever said of a hidden variable. -/

namespace Lox.Guarded

open Exec

set_option linter.unusedSectionVars false

variable {w : Correspondence} {start start' : Sink} {ctx ctx' : Context}

section

variable (settings : Context.Twin w start start' ctx ctx')
include settings

theorem parallel_twins :
    Parallel w.likeness quiet quiet ctx ctx' (Twins w start start') where
  pure := .pure
  bind := .bind
  capture := capture_twins
  within := .within
  repeatWhile tests runs := by
    rw [settings.rounds]
    exact .repeatWhile tests runs _
  kind operators := operators.kind
  lexeme names := names.lexeme
  ofOperator := ofOperator_twins
  lookUp names := lookUp_twins settings names.1 names.2
  store names := store_twins settings names.1 names.2
  declare names := declare_twins settings names.1 names.2
  lookUpHidden ids t u := by
    obtain ⟨slot, slot', bound, bound', slots⟩ := settings.binds.hidden _ _ ids
    exact lookUp_twins_of_slot t u bound bound' slots
  declareHidden ids t u value := by
    obtain ⟨slot, slot', bound, bound', slots⟩ := settings.binds.hidden _ _ ids
    exact declare_twins_of_slot settings t u bound bound' slots value
  invoke parens callee arguments := invoke_twins settings callee arguments parens
  close := close_twins
  getProperty names object := getProperty_twins settings.binds.injective object names
  receiver names object := receiver_twins object names
  setField id name value := .modify fun _ _ twin => twin.setField id name value
  print := print_twins
  addMethods closure members _ _ decls := addMethods_twins closure decls members
  addClass tokens nodes members := by
    have object : ClassObject.Twin w ⟨_, members, ctx.bindings.slot? _⟩
        ⟨_, members, ctx'.bindings.slot? _⟩ :=
      ⟨tokens.lexeme, rfl, settings.binds.nodes _ _ nodes⟩
    exact .modifyGet fun _ _ twin => twin.addClass object

/-- Parameters get their values. -/
theorem bindParams_twin {params params' : List Param}
    (parameters : List.Forall₂ (Param.Like w.likeness) params params') :
    ∀ {env env' : Environment} (arguments : List Value), Environment.Twin w env env' →
      Environment.Twin w (bindParams ctx.bindings env params arguments)
        (bindParams ctx'.bindings env' params' arguments) := by
  induction parameters with
  | nil => exact fun arguments twin => twin
  | cons head _ ih =>
      intro env env' arguments twin
      cases arguments with
      | nil => exact twin
      | cons value rest =>
          unfold bindParams
          rcases settings.binds.both head.1 with ⟨slot, slot', bound, bound', slots⟩ |
            ⟨bound, bound'⟩
          · simp only [bound, bound']
            refine ih rest ?_
            unfold Environment.define
            rw [twin.current]
            exact twin.setCell settings.binds.injective _ slots value
          · simp only [bound, bound']
            exact ih rest twin

theorem body_twins {f g : FunctionObject} (objects : FunctionObject.Twin w f g)
    (arguments : List Value) :
    Twins w start start' (body quiet ctx f arguments) (body quiet ctx' g arguments) :=
  (parallel_twins settings).body .deeper
    (fun parameters arguments => .modify fun _ _ twin =>
      twin.withEnvironment (bindParams_twin settings parameters arguments twin.environment))
    objects.decl objects.closure objects.receiver arguments

end

/-- Functions that are twins do the same when they are called. -/
theorem call_twins {bindings bindings' : Bindings} (binds : w.Binds bindings bindings')
    (maxDepth : Nat) : ∀ (bound : Nat) (id : FunctionId) (arguments : List Value),
      Twins w start start' (call quiet bindings maxDepth bound id arguments)
        (call quiet bindings' maxDepth bound id arguments)
  | 0, _, _ => .exhausted
  | bound + 1, id, arguments => by
      have settings : Context.Twin w start start'
          ⟨bindings, maxDepth, bound, call quiet bindings maxDepth bound⟩
          ⟨bindings', maxDepth, bound, call quiet bindings' maxDepth bound⟩ :=
        ⟨binds, rfl, rfl, call_twins binds maxDepth bound⟩
      exact .get_bind fun m n twin => body_twins settings (twin.functions id) arguments

theorem context_twin {bindings bindings' : Bindings} (binds : w.Binds bindings bindings')
    (maxDepth bound : Nat) :
    Context.Twin w start start' (context quiet bindings maxDepth bound)
      (context quiet bindings' maxDepth bound) :=
  ⟨binds, rfl, rfl, call_twins binds maxDepth bound⟩

theorem flush_twins : Twins w start start' flush flush := by
  intro m n twin
  unfold flush Sink.flushFailure?
  rw [twin.output.flushes, twin.output.flushes']
  exact .ok twin

/-- Programs that are alike do the same. -/
theorem program_twins (settings : Context.Twin w start start' ctx ctx') {ss ss' : List Stmt}
    (alike : Stmts.Like w.likeness ss ss') :
    Twins w start start' (program quiet ctx ss) (program quiet ctx' ss') := by
  intro m n twin
  have meets := (parallel_twins settings).stmts alike m n twin
  unfold program
  generalize stmts quiet ctx ss m = one at meets ⊢
  generalize stmts quiet ctx' ss' n = two at meets ⊢
  cases meets with
  | ok twin => exact flush_twins _ _ twin
  | error stops twin =>
      cases stops with
      | exhausted => exact .error .exhausted twin
      | faulted fault tokens =>
          have flushed := flush_twins _ _ twin
          dsimp only
          generalize flush _ = one at flushed ⊢
          generalize flush _ = two at flushed ⊢
          cases flushed with
          | ok twin => exact .error (.faulted fault tokens) twin
          | error stops twin => exact .error stops twin

end Lox.Guarded
