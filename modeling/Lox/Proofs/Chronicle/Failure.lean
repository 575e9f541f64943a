import Lox.Proofs.Chronicle.Session

set_option autoImplicit false

/-! What a declaration leaves behind that fails. A variable is written after its initializer has been
evaluated, so one that fails has not been written by its declaration. The name of a class is written
before the members are evaluated: it is there, as `nil`, while they are, and stays if this fails. -/

namespace Lox

/-- The sites of a statement of a program are among those of the program. -/
theorem Sites.mem_program {statement : Stmt} {site : Site} (inside : site ∈ stmt [] statement) :
    ∀ program : List Stmt, statement ∈ program → site ∈ Sites.program program
  | first :: rest, member => by
    rcases List.mem_cons.mp member with rfl | later
    · exact List.mem_append_left _ inside
    · exact List.mem_append_right _ (mem_program inside rest later)

/-- A program goes on where its first statements end. -/
theorem Steps.stmts_of_done {σ : Type} {steps : Steps σ} (rest : List Stmt) {middle : σ} :
    ∀ (done : List Stmt) (start : σ), steps.stmts done start = .ok .normal middle →
      steps.stmts (done ++ rest) start = steps.stmts rest middle
  | [], start, ran => by
    cases ran
    rfl
  | s :: more, start, ran => by
    obtain ⟨flow, next, first, after⟩ := Outcome.ok_of_bind ran
    cases flow with
    | normal => exact (Outcome.bind_of_ok first).trans (stmts_of_done rest more next after)
    | returned value => cases after

namespace Chronicle

variable {known : Site → Prop} {c after : Chronicle}

/-- A global variable is written. -/
def write (c : Chronicle) (name : String) (value : Value) : Chronicle :=
  ⟨{ c.machine with environment := c.machine.environment.defineGlobal name value },
    .wrote name value :: c.deeds⟩

/-- A global variable has changed only if it has been written. -/
theorem Tells.globals_of_deeds (tells : c.Tells known) (ended : after.Tells known) {new : List Deed}
    (deeds : after.deeds = new ++ c.deeds) (name : String) :
    after.machine.environment.globals.get? name =
      (lastWritten? new name).or (c.machine.environment.globals.get? name) := by
  rw [ended.book.globals, tells.book.globals, deeds, lastWritten?_append]

theorem Tells.write (tells : c.Tells known) (name : String) (value : Value)
    (knows : c.machine.Knows value) : Tells known (c.write name value) :=
  ⟨tells.book.defineGlobal name knows, tells.truthful⟩

theorem get?_write (c : Chronicle) (name other : String) (value : Value) :
    (c.write name value).machine.environment.globals.get? other =
      if name = other then some value else c.machine.environment.globals.get? other :=
  Table.get?_insert ..

end Chronicle

namespace Noting

open Chronicle

variable {known : Site → Prop} {ctx : Context} {id : NodeId} {name : Token} {c after : Chronicle} {stop : Stop}

theorem declare_global (noSlot : ctx.bindings.slot? id = none) (name : Token) (value : Value)
    (c : Chronicle) : declare ctx id name value c = .ok () (c.write name.lexeme value) := by
  unfold declare step written Exec.declare
  rw [noSlot]
  rfl

theorem store_global (noSlot : ctx.bindings.slot? id = none) (value : Value)
    (there : c.machine.environment.globals.contains name.lexeme = true) :
    store ctx id name value c = .ok () (c.write name.lexeme value) := by
  unfold store step written Exec.store
  simp only [noSlot, there, if_pos]
  rfl

/-- A class can be made as soon as its fields have got their first values. -/
theorem finishClass_ends (tells : c.Tells known) {decl : ClassDecl}
    (orderly : Orderly.functions (ClassDecl.Accepted known) decl.methods)
    (noSlot : ctx.bindings.slot? decl.id = none)
    (there : (lastWritten? c.deeds decl.name.lexeme).isSome = true) (before : Machine)
    (values : Table String Value) : ∃ last, finishClass ctx decl before values c = .ok () last := by
  obtain ⟨all, middle, same, adds⟩ :=
    Exec.addMethods_ends known c.machine.environment.current decl.methods values c.machine
  have methods : quietly (do Exec.addMethods (← Exec.capture) values decl.methods) c =
      .ok all ⟨middle, c.deeds⟩ := by
    change step (Exec.addMethods _ values decl.methods) (fun _ => []) c = _
    unfold step
    rw [same]
    rfl
  have contains : middle.environment.globals.contains decl.name.lexeme = true := by
    rw [Table.contains, (adds.book c.deeds tells.book orderly).globals]
    exact there
  unfold finishClass
  rw [Outcome.bind_of_ok methods]
  exact ⟨_, store_global noSlot _ contains⟩

theorem makeClass_global {decl : ClassDecl} (noSlot : ctx.bindings.slot? decl.id = none)
    (evaluate : Noting (Table String Value)) (c : Chronicle) :
    makeClass ctx decl evaluate c =
      (evaluate >>= finishClass ctx decl (c.write decl.name.lexeme .nil).machine)
        (c.write decl.name.lexeme .nil) :=
  Outcome.bind_of_ok (declare_global noSlot decl.name .nil c)

/-- The declaration of a global variable fails only if its initializer does. -/
theorem initial_of_var {bindings : Bindings} {limit bound : Nat} (noSlot : bindings.slot? id = none)
    {initial : Option Expr}
    (failed : (interpreter bindings limit bound).stmt (.var id name initial) c = .error stop after) :
    ∃ e, initial = some e ∧ (interpreter bindings limit bound).expr e c = .error stop after := by
  have isGlobal : (Exec.context bindings limit bound).bindings.slot? id = none := noSlot
  have declares (value : Value) (middle : Chronicle) : (do
      declare (Exec.context bindings limit bound) id name value
      return Flow.normal : Noting Flow) middle ≠ .error stop after := by
    rw [Outcome.bind_of_ok (declare_global isGlobal name value middle)]
    nofun
  cases initial with
  | none => exact absurd failed (declares .nil c)
  | some e =>
    rcases Outcome.error_of_bind failed with evaluates | ⟨value, middle, -, last⟩
    · exact ⟨e, rfl, evaluates⟩
    · exact absurd last (declares value middle)

section

variable {bindings : Bindings} (vouched : Vouched known bindings) (limit bound : Nat)
include vouched

theorem expr_ends (tells : c.Tells known) {e : Expr} (orderly : Orderly.expr (ClassDecl.Accepted known) e) :
    let result := (interpreter bindings limit bound).expr e c
    Tells known (Outcome.state result) ∧ c.Continues (Outcome.state result) :=
  (ends_of_concurs <| (interpreter_tandem vouched limit bound).expr e orderly ⟨(), c, c.machine⟩
    ⟨rfl, tells⟩).2

theorem fields_end (tells : c.Tells known) {decls : List FieldDecl}
    (orderly : Orderly.fields (ClassDecl.Accepted known) decls) :
    let result := (interpreter bindings limit bound).fields Table.empty decls c
    Tells known (Outcome.state result) ∧ c.Continues (Outcome.state result) :=
  (ends_of_concurs <| (interpreter_tandem vouched limit bound).fields decls [] Table.empty orderly
    ⟨(), c, c.machine⟩ ⟨rfl, tells⟩ (.empty _)).2

/-- The declaration of a global class fails only while its fields are evaluated, and its name has been written
by then. -/
theorem fields_of_class (tells : c.Tells known) {decl : ClassDecl}
    (orderly : Orderly.stmt (ClassDecl.Accepted known) decl.statement)
    (noSlot : bindings.slot? decl.id = none)
    (failed : (interpreter bindings limit bound).stmt decl.statement c = .error stop after) :
    (interpreter bindings limit bound).fields Table.empty decl.fields (c.write decl.name.lexeme .nil) =
      .error stop after := by
  have begun := tells.write decl.name.lexeme .nil trivial
  have ran := fields_end vouched limit bound begun orderly.2.1
  have makes : makeClass (Exec.context bindings limit bound) decl
      ((interpreter bindings limit bound).fields Table.empty decl.fields) c = .error stop after := by
    rcases Outcome.error_of_bind failed with makes | ⟨_, _, -, last⟩
    · exact makes
    · cases last
  rw [makeClass_global noSlot] at makes
  rcases Outcome.error_of_bind makes with evaluates | ⟨values, middle, evaluated, finishes⟩
  · exact evaluates
  · -- Once the fields have values nothing can fail: the name was written before, and no global is removed.
    rw [evaluated] at ran
    have ended : Tells known middle := ran.1
    obtain ⟨new, deeds⟩ : ∃ new, middle.deeds = new ++ _ := ran.2.deeds
    have there : (lastWritten? middle.deeds decl.name.lexeme).isSome = true := by
      rw [← ended.book.globals, begun.globals_of_deeds ended deeds, get?_write, if_pos rfl, Option.isSome_or]
      exact Bool.or_true _
    have isGlobal : (Exec.context bindings limit bound).bindings.slot? decl.id = none := noSlot
    obtain ⟨last, done⟩ := finishClass_ends ended orderly.2.2 isGlobal there
      (c.write decl.name.lexeme .nil).machine values
    rw [done] at finishes
    cases finishes

end
end Noting

open Chronicle

/-- When a declaration fails at the top level of a program that a session runs, the run ends there. If it
declares a variable, then its initializer has failed in the same way; a global variable, the one that is
declared among them, has the value that was last written to it while the initializer was evaluated, and is
as it was before the declaration if none was. If it declares a class, then its fields have failed in the same
way, after `nil` was written to its name; a global variable has the value that was last written to it
while the fields were evaluated, and if none was, the one that is declared is `nil` and any other one is as
it was before the declaration. -/
theorem failed_declarations_write_no_more {s : Session} {deeds : List Deed} (chronicled : s.Chronicled deeds)
    {source : String} {loaded : Session} {done rest : List Stmt} {statement : Stmt}
    (load : Stage.load source s = .ok (some (done ++ statement :: rest)) loaded) (bound : Nat)
    {m last : Machine} {stop : Stop}
    (ran : Exec.stmts (Exec.context loaded.bindings loaded.config.maxCallDepth bound) done loaded.machine =
      .ok .normal m)
    (failed : Exec.stmt (Exec.context loaded.bindings loaded.config.maxCallDepth bound) statement m =
      .error stop last) :
    let run := Noting.interpreter loaded.bindings loaded.config.maxCallDepth bound
    let globals (m : Machine) (name : String) := m.environment.globals.get? name
    (∀ exit after, s.run bound source = some (exit, after) → after.machine = last) ∧
    ∃ earlier : List Deed, run.stmts done ⟨loaded.machine, deeds⟩ = .ok .normal ⟨m, earlier⟩ ∧
      (∀ id name initial, statement = .var id name initial → ∃ e new, initial = some e ∧
        run.expr e ⟨m, earlier⟩ = .error stop ⟨last, new ++ earlier⟩ ∧
          ∀ other, globals last other = (lastWritten? new other).or (globals m other)) ∧
      ∀ decl : ClassDecl, statement = decl.statement → ∃ new,
        run.fields Table.empty decl.fields (Chronicle.write ⟨m, earlier⟩ decl.name.lexeme .nil) =
          .error stop ⟨last, new ++ .wrote decl.name.lexeme .nil :: earlier⟩ ∧
            ∀ other, globals last other = (lastWritten? new other).or
              (if decl.name.lexeme = other then some .nil else globals m other) := by
  intro run globals
  obtain ⟨sites, sound, tells⟩ := chronicled.tells
  obtain ⟨vouched, start, orderly⟩ := Session.loads_chronicle sound tells load
  have parts := Orderly.stmts_iff.mp orderly
  have isPart : statement ∈ done ++ statement :: rest := List.mem_append_right done List.mem_cons_self
  have begins := Noting.stmts_concur vouched loaded.config.maxCallDepth bound start
    (Orderly.stmts_iff.mpr fun s member => parts s (List.mem_append_left _ member))
  rw [ran] at begins
  obtain ⟨earlier, reached, here, -⟩ := ok_of_concurs begins
  have goes := (Noting.interpreter_tandem vouched loaded.config.maxCallDepth bound).stmt statement
    (parts statement isPart) ⟨(), ⟨m, earlier⟩, m⟩ ⟨rfl, here⟩ (.inl trivial)
  rw [Exec.stmt_steps, failed] at goes
  obtain ⟨all, fails, ended, -⟩ := error_of_concurs goes
  -- What is declared at the top level has no slot: it is a global variable.
  have global {id : NodeId} {name : Token} (inside : ⟨[], .declaration id name⟩ ∈ Sites.stmt [] statement) :
      loaded.bindings.slot? id = none := by
    have bound := vouched.bound _ (List.mem_append_right sites (Sites.mem_program inside _ isPart))
    exact Option.not_isSome_iff_eq_none.mp (Bool.eq_false_iff.mp bound)
  refine ⟨fun exit after ends => ?_, earlier, reached, fun id name initial kind => ?_, fun decl kind => ?_⟩
  · have whole := (Steps.stmts_of_done (statement :: rest) done _ reached).trans (Outcome.bind_of_error fails)
    rw [Session.chronicle_of_run sound tells ends, Session.chronicle, load]
    exact congrArg (·.machine) (congrArg Outcome.state whole)
  · subst kind
    have declares : ⟨[], .declaration id name⟩ ∈ Sites.stmt [] (.var id name initial) := by
      cases initial <;> exact List.mem_cons_self
    obtain ⟨e, rfl, evaluates⟩ := Noting.initial_of_var (global declares) fails
    have ends := Noting.expr_ends vouched loaded.config.maxCallDepth bound here (parts _ isPart)
    rw [evaluates] at ends
    obtain ⟨new, rfl⟩ := ends.2.deeds
    exact ⟨e, new, rfl, evaluates, here.globals_of_deeds ended rfl⟩
  · subst kind
    have orderly := parts _ isPart
    have evaluates := Noting.fields_of_class vouched _ bound here orderly (global List.mem_cons_self) fails
    have begun := here.write decl.name.lexeme .nil trivial
    have ends := Noting.fields_end vouched loaded.config.maxCallDepth bound begun orderly.2.1
    rw [evaluates] at ends
    obtain ⟨new, rfl⟩ := ends.2.deeds
    refine ⟨new, evaluates, fun other => ?_⟩
    rw [← Chronicle.get?_write ⟨m, earlier⟩]
    exact begun.globals_of_deeds ended rfl other

/-- A class whose initializer fails after it has assigned the class itself. -/
theorem failed_declarations_write_no_more_after_assignment :
    let start := Session.new {} .unlimited .unlimited
    let source := "class A { x = -(fun () { A = true; return nil; })(); }"
    let loaded := Outcome.state (Stage.load source start)
    let globals (m : Machine) (name : String) := m.environment.globals.get? name
    ∃ (decl : ClassDecl) (last : Machine) (new : List Deed),
      Stage.load source start = .ok (some [decl.statement]) loaded ∧ decl.name.lexeme = "A" ∧
      (globals last "A").map last.text = some "true" ∧
      ∀ other, globals last other = (lastWritten? new other).or
        (if "A" = other then some .nil else globals loaded.machine other) := by
  intro start source loaded globals
  let ctx := Exec.context loaded.bindings loaded.config.maxCallDepth 16
  have fails : (Outcome.value? (Stage.load source start)).join.any (fun program => program.length == 1 &&
      (program.head?.bind ClassDecl.ofStatement?).any fun decl => decl.name.lexeme == "A" &&
        !Outcome.succeeds (Exec.stmt ctx decl.statement loaded.machine) &&
          (globals (Outcome.state (Exec.stmt ctx decl.statement loaded.machine)) "A").map
            (Outcome.state (Exec.stmt ctx decl.statement loaded.machine)).text == some "true") = true := by
    decide +kernel
  obtain ⟨program, found, single⟩ := (Option.any_eq_true _ _).mp fails
  rw [Bool.and_eq_true, beq_iff_eq] at single
  obtain ⟨statement, rfl⟩ := List.length_eq_one_iff.mp single.1
  obtain ⟨decl, declares, stops⟩ := (Option.any_eq_true _ _).mp single.2
  obtain rfl := ClassDecl.eq_statement declares
  simp only [Bool.and_eq_true, beq_iff_eq, Bool.not_eq_true'] at stops
  obtain ⟨⟨named, fails⟩, left⟩ := stops
  obtain ⟨stop, failed⟩ := Outcome.eq_error_of_not_succeeds fails
  have load : Stage.load source start = .ok (some ([] ++ decl.statement :: [])) loaded :=
    Outcome.eq_ok_of_value? (Option.join_eq_some_iff.mp found)
  obtain ⟨-, earlier, -, -, leaves⟩ :=
    failed_declarations_write_no_more (.new {} .unlimited .unlimited) load 16 rfl failed
  obtain ⟨new, -, written⟩ := leaves decl rfl
  rw [named] at written
  exact ⟨decl, _, new, load, named, left, written⟩

/-- A class whose declaration fails is `nil` afterwards, although nothing but the declaration has written its
name. -/
theorem failed_class_leaves_nil :
    let start := Session.new {} .unlimited .unlimited
    let source := "class A { x = -nil; }"
    let globals (m : Machine) (name : String) := m.environment.globals.get? name
    ∃ last, start.run 16 source = some (some ⟨1, true⟩, last) ∧
      (start.chronicle [] 16 source).deeds.length = 1 ∧
      globals start.machine "A" = none ∧ (globals last.machine "A").map last.machine.text = some "nil" := by
  intro start source globals
  obtain ⟨ends, happened⟩ : (start.run 16 source).map
      (fun ran => (ran.1, (globals ran.2.machine "A").map ran.2.machine.text)) =
        some (some ⟨1, true⟩, some "nil") ∧ (start.chronicle [] 16 source).deeds.length = 1 := by
    decide +kernel
  obtain ⟨⟨exit, last⟩, ran, same⟩ := Option.map_eq_some_iff.mp ends
  obtain ⟨rfl, left⟩ := Prod.mk.inj same
  exact ⟨last, ran, happened, rfl, left⟩

end Lox
