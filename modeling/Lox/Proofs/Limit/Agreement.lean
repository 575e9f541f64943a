import Lox.Proofs.Limit.Curtailed
import Lox.Proofs.Trace.Session

set_option autoImplicit false

/-! A limit on the output curtails all code: by induction on the code, and on the bound for the functions that
it calls. -/

namespace Lox

variable {most : Nat}

set_option linter.unusedSectionVars false

namespace Traced

section

variable {ctx : Context} {call : Calls}
  (calls : ∀ id arguments, Curtailed most (call id arguments) (ctx.call id arguments))
include calls

theorem callFunction_curtailed (id : FunctionId) (arguments : List Value) (paren : Token) :
    Curtailed most (callFunction ctx call id arguments paren)
      (Exec.callFunction ctx id arguments paren) := by
  refine .machine_bind fun m => ?_
  change Curtailed most _ (if ctx.maxDepth ≤ m.depth then _ else _)
  by_cases full : ctx.maxDepth ≤ m.depth
  · rw [if_pos full, if_pos full]
    exact .step (Exec.blind_fail _ _)
  · rw [if_neg full, if_neg full]
    exact calls id arguments

theorem construct_curtailed (id : ClassId) (arguments : List Value) (paren : Token) :
    Curtailed most (construct ctx call id arguments paren)
      (Exec.construct ctx id arguments paren) := by
  refine .machine_bind fun first => .machine_bind fun second => .machine_bind fun third => ?_
  refine (Curtailed.step (Exec.blind_checkArity _ _ paren)).bind fun _ => ?_
  refine (Curtailed.step fun _ _ => rfl).bind fun fresh => ?_
  have initial : (second.capped most).initializer? ((first.capped most).classAt id) =
      second.initializer? (first.classAt id) := rfl
  have slot : ((first.capped most).classAt id).thisSlot = (first.classAt id).thisSlot := rfl
  rw [initial, slot]
  cases second.initializer? (first.classAt id) with
  | none => exact .pure _
  | some f =>
      cases (first.classAt id).thisSlot with
      | none => exact .pure _
      | some slot =>
          refine (Curtailed.step fun _ _ => rfl).bind fun bound => ?_
          exact (callFunction_curtailed calls bound arguments paren).bind fun _ => .pure _

theorem invoke_curtailed (callee : Value) (arguments : List Value) (paren : Token) :
    Curtailed most (invoke ctx call callee arguments paren)
      (Exec.invoke ctx callee arguments paren) := by
  cases callee with
  | function id =>
      refine .machine_bind fun m => ?_
      exact (Curtailed.step (Exec.blind_checkArity _ _ paren)).bind fun _ =>
        callFunction_curtailed calls id arguments paren
  | «class» id => exact construct_curtailed calls id arguments paren
  | _ => exact .step (Exec.blind_fail _ _)

omit calls in
theorem makeClass_curtailed (id : NodeId) (name : Token) (thisId : NodeId)
    (methodDecls : List FunctionDecl) (members : Table String Value) :
    Curtailed most (makeClass ctx id name thisId methodDecls members) (do
      let members ← Exec.addMethods (← Exec.capture) members methodDecls
      let object := ⟨name.lexeme, members, ctx.bindings.slot? thisId⟩
      let made ← modifyGet (·.addClass object)
      Exec.store ctx id name (.class made)
      return .normal) :=
  .capture_bind fun closure =>
    (Curtailed.step (Exec.blind_addMethods closure members methodDecls)).bind fun _ =>
      (Curtailed.step fun _ _ => rfl).bind fun _ =>
        (Curtailed.step (Exec.blind_store _ _ _ _)).bind fun _ => .pure _

mutual

theorem expr_curtailed : ∀ e : Expr, Curtailed most (expr ctx call e) (Exec.expr ctx e)
  | .literal _ => .pure _
  | .unary _ right =>
      (expr_curtailed right).bind fun _ => .step (Exec.blind_ofOperator _ _)
  | .binary left _ right =>
      (expr_curtailed left).bind fun _ =>
        (expr_curtailed right).bind fun _ => .step (Exec.blind_ofOperator _ _)
  | .logical left _ right => by
      refine (expr_curtailed left).bind fun value => ?_
      split
      · exact .pure value
      · exact expr_curtailed right
  | .ternary condition thenBranch elseBranch => by
      refine (expr_curtailed condition).bind fun value => ?_
      split
      · exact expr_curtailed thenBranch
      · exact expr_curtailed elseBranch
  | .grouping inner => expr_curtailed inner
  | .variable _ _ => .step (Exec.blind_lookUp _ _ _)
  | .assign _ _ value =>
      (expr_curtailed value).bind fun value =>
        (Curtailed.step (Exec.blind_store _ _ _ _)).bind fun _ => .pure value
  | .call callee paren arguments =>
      (expr_curtailed callee).bind fun callee =>
        (exprs_curtailed arguments).bind fun arguments =>
          invoke_curtailed calls callee arguments paren
  | .function _ => .step fun _ _ => rfl
  | .get object name =>
      (expr_curtailed object).bind fun object => .step (Exec.blind_getProperty object name)
  | .set object name value =>
      (expr_curtailed object).bind fun object =>
        (Curtailed.step (Exec.blind_receiver object name)).bind fun _ =>
          (expr_curtailed value).bind fun value =>
            (Curtailed.step fun _ _ => rfl).bind fun _ => .pure value
  | .this _ _ => .step (Exec.blind_lookUp _ _ _)

theorem exprs_curtailed : ∀ es : List Expr, Curtailed most (exprs ctx call es) (Exec.exprs ctx es)
  | [] => .pure []
  | e :: rest =>
      (expr_curtailed e).bind fun value =>
        (exprs_curtailed rest).bind fun values => .pure (value :: values)

theorem stmt_curtailed : ∀ s : Stmt, Curtailed most (stmt ctx call s) (Exec.stmt ctx s)
  | .expression value => (expr_curtailed value).bind fun _ => .pure _
  | .print value =>
      (expr_curtailed value).bind fun value => (Curtailed.print value).bind fun _ => .pure _
  | .var id name none =>
      (Curtailed.step (Exec.blind_declare ctx id name .nil)).bind fun _ => .pure _
  | .var id name (some initial) =>
      (expr_curtailed initial).bind fun value =>
        (Curtailed.step (Exec.blind_declare ctx id name value)).bind fun _ => .pure _
  | .block body => .capture_bind fun chain => (stmts_curtailed body).within chain
  | .branch condition thenBranch none => by
      refine (expr_curtailed condition).bind fun value => ?_
      split
      · exact stmt_curtailed thenBranch
      · exact .pure _
  | .branch condition thenBranch (some elseBranch) => by
      refine (expr_curtailed condition).bind fun value => ?_
      split
      · exact stmt_curtailed thenBranch
      · exact stmt_curtailed elseBranch
  | .loop condition body =>
      .repeatWhile ((expr_curtailed condition).map _) (stmt_curtailed body) ctx.rounds
  | .function id name decl =>
      (Curtailed.step fun _ _ => rfl).bind fun value =>
        (Curtailed.step (Exec.blind_declare ctx id name value)).bind fun _ => .pure _
  | .ret _ none => .pure _
  | .ret _ (some value) => (expr_curtailed value).bind fun _ => .pure _
  | .class id name thisId fieldDecls methodDecls =>
      (Curtailed.step (Exec.blind_declare ctx id name .nil)).bind fun _ =>
        (fields_curtailed fieldDecls Table.empty).bind fun members =>
          makeClass_curtailed id name thisId methodDecls members

theorem stmts_curtailed : ∀ ss : List Stmt, Curtailed most (stmts ctx call ss) (Exec.stmts ctx ss)
  | [] => .pure _
  | s :: rest => by
      refine (stmt_curtailed s).bind fun flow => ?_
      cases flow with
      | normal => exact stmts_curtailed rest
      | returned value => exact .pure _

theorem fields_curtailed : ∀ (decls : List FieldDecl) (members : Table String Value),
    Curtailed most (fields ctx call members decls) (Exec.fields ctx members decls)
  | [], members => .pure members
  | .mk _ none :: rest, _ => fields_curtailed rest _
  | .mk _ (some initial) :: rest, _ =>
      (expr_curtailed initial).bind fun _ => fields_curtailed rest _

end

theorem body_curtailed (object : FunctionObject) (arguments : List Value) :
    Curtailed most (body ctx call object arguments) (Exec.body ctx object arguments) := by
  refine .bind (.deeper (.within object.closure (.bind (.step fun _ _ => rfl) fun _ => ?_)))
    fun flow => ?_
  · exact stmts_curtailed calls object.decl.body
  · cases object.isInitializer <;> cases object.receiver <;> cases flow <;> exact .pure _

theorem outermost_curtailed (s : Stmt) : Curtailed most (outermost ctx call s) (Exec.stmt ctx s) := by
  cases s with
  | var id name initial =>
      cases initial with
      | none => exact (Curtailed.enter ctx id name .nil).bind fun _ => .pure _
      | some e =>
          exact (expr_curtailed calls e).bind fun value =>
            (Curtailed.enter ctx id name value).bind fun _ => .pure _
  | function id name decl =>
      exact (Curtailed.step fun _ _ => rfl).bind fun value =>
        (Curtailed.enter ctx id name value).bind fun _ => .pure _
  | «class» id name thisId fieldDecls methodDecls =>
      exact (Curtailed.enter ctx id name .nil).bind fun _ =>
        (fields_curtailed calls fieldDecls Table.empty).bind fun members =>
          makeClass_curtailed id name thisId methodDecls members
  | expression value => exact stmt_curtailed calls (.expression value)
  | print value => exact stmt_curtailed calls (.print value)
  | block body => exact stmt_curtailed calls (.block body)
  | branch condition thenBranch elseBranch =>
      exact stmt_curtailed calls (.branch condition thenBranch elseBranch)
  | loop condition body => exact stmt_curtailed calls (.loop condition body)
  | ret keyword value => exact stmt_curtailed calls (.ret keyword value)

theorem sequence_curtailed : ∀ ss : List Stmt,
    Curtailed most (sequence ctx call ss) (Exec.stmts ctx ss)
  | [] => .pure _
  | s :: rest => by
      refine (outermost_curtailed calls s).bind fun flow => ?_
      cases flow with
      | normal => exact sequence_curtailed rest
      | returned value => exact .pure _

end

/-- Calls are curtailed, however deep they nest. -/
theorem calls_curtailed (bindings : Bindings) (maxDepth bound : Nat) (id : FunctionId)
    (arguments : List Value) :
    Curtailed most (calls bindings maxDepth bound id arguments)
      (Exec.call bindings maxDepth bound id arguments) := by
  induction bound generalizing id arguments with
  | zero => exact .throw _
  | succ bound ih =>
      have inner : ∀ id arguments, Curtailed most (calls bindings maxDepth bound id arguments)
          ((Exec.context bindings maxDepth bound).call id arguments) := ih
      exact .machine_bind fun m => body_curtailed inner (m.functionAt id) arguments

theorem flush_of_unfailing (most : Nat) {r : Record} (unfailing : r.now.machine.output.Unfailing) :
    flush r = .ok () (r.become r.now.machine) ∧
      Exec.flush (r.now.machine.capped most) = .ok () (r.now.machine.capped most) := by
  have capped : (r.now.machine.capped most).output.flushFailure? = none := unfailing.flushFailure?
  unfold flush step Exec.flush
  rw [unfailing.flushFailure?, capped]
  exact ⟨rfl, rfl⟩

/-- A machine that the limit has stopped can still be flushed. -/
theorem flush_of_overruns {r after : Record} {last : Machine} (overruns : r.Overruns most after last) :
    Exec.flush last = .ok () last := by
  obtain ⟨_, first, _, -, -, exceeds, -, left⟩ := overruns
  have output : last.reset.output = (first.machine.capped most).reset.output :=
    congrArg Machine.output left
  have same : last.output = (first.machine.capped most).output := output
  have unfailing : (first.machine.capped most).output.flushFailure? = none := exceeds.flushFailure?
  unfold Exec.flush
  rw [same, unfailing]

theorem program_curtailed (bindings : Bindings) (maxDepth bound : Nat) (ss : List Stmt) :
    Curtailed most (program (Exec.context bindings maxDepth bound) (calls bindings maxDepth bound) ss)
      (Exec.program (Exec.context bindings maxDepth bound) ss) := by
  have runs : Curtailed most
      (sequence (Exec.context bindings maxDepth bound) (calls bindings maxDepth bound) ss)
      (Exec.stmts (Exec.context bindings maxDepth bound) ss) :=
    sequence_curtailed (calls_curtailed bindings maxDepth bound) ss
  have flushed (r : Record) := state_program (Exec.context bindings maxDepth bound)
    (calls bindings maxDepth bound) ss r
  generalize Exec.context bindings maxDepth bound = ctx at runs flushed ⊢
  generalize calls bindings maxDepth bound = call at runs flushed ⊢
  have closes (r : Record) : (Outcome.state (sequence ctx call ss r)).Grows
      (Outcome.state (program ctx call ss r)) := by
    rcases flushed r with same | same
    · exact same ▸ .refl _
    · exact same ▸ Record.grows_next (.refl _)
  refine ⟨fun r => (runs.grows r).trans (closes r), fun r fits => ?_⟩
  have whole := runs.curtails r fits
  have closed := closes r
  unfold program at closed ⊢
  unfold Exec.program
  generalize sequence ctx call ss r = here at whole closed ⊢
  generalize Exec.stmts ctx ss (r.now.machine.capped most) = there at whole ⊢
  cases whole with
  | fits since =>
      cases here with
      | ok flow last =>
          have still : last.now.machine.output.Fits most := since.now fits
          obtain ⟨one, two⟩ := flush_of_unfailing most still.toUnfailing
          change Curtails most r (flush last) (Exec.flush (last.now.machine.capped most))
          rw [one, two]
          exact .fits (since.trans (.next still))
      | error stop last =>
          cases stop with
          | exhausted => exact .fits since
          | error e =>
              have still : last.now.machine.output.Fits most := since.now fits
              obtain ⟨one, two⟩ := flush_of_unfailing most still.toUnfailing
              dsimp only [Traced.forget, Outcome.onState]
              rw [one, two]
              exact .fits (since.trans (.next still))
  | @overruns last overruns =>
      dsimp only
      rw [flush_of_overruns overruns]
      exact .overruns (overruns.grow closed)

end Traced
end Lox
