import Lox.Proofs.Lexical.Closures

set_option autoImplicit false

/-! How statements end on both sides, what is in sight after them, and which slots are their own. The
rounds of a loop go alike if each of them does. -/

namespace Lox.Lexical

variable {bindings : Bindings} {w more : World} {m after : Machine} {n last : Memory}
  {path : Path} {chain : Chain} {sight : Sight}

/-- Both sides end in the same way, and what is returned may be used. -/
structure FlowAlike (bindings : Bindings) (w : World) (real plain : Flow) : Prop where
  same : plain = real
  backs : ∀ value, real = .returned value → w.Backs bindings value

theorem flowAlike_normal : FlowAlike bindings w .normal .normal :=
  ⟨rfl, fun _ impossible => nomatch impossible⟩

/-- A statement that goes on leaves in sight what is in sight after it. -/
structure Onward (bindings : Bindings) (path : Path) (chain : Chain) (w : World) (flow : Flow)
    (onward : Flow × Sight) : Prop where
  alike : FlowAlike bindings w flow onward.1
  sees : flow = .normal → Sees bindings w path chain onward.2

theorem Sees.past_nil (sees : Sees bindings w path chain sight)
    (holds : path.holdsStatements = true) {s : Stmt} (declared : s.declared = []) :
    Sees bindings w (path.past s) chain sight :=
  sees.at_path Path.isLocal_past fun name => Path.declaration?_past_nil name holds declared

/-- After a statement that declares nothing the same names are in sight as before it. -/
theorem Lockstep.bare {own : List Slot} {other : Path} {real : Exec Flow}
    {plain : Run (Flow × Sight)} (sees : Sees bindings w other chain sight)
    (lockstep : Lockstep bindings own w m n real plain (Onward bindings path chain)) :
    Lockstep bindings own w m n real (plain >>= fun onward => Pure.pure (onward.1, sight))
      (Onward bindings other chain) :=
  lockstep.yield (fun onward => (onward.1, sight)) fun _ _ _ _ _ step onward =>
    ⟨onward.alike, fun _ => sees.le step.le⟩

/-- A statement declares nothing, or one name at its first site. -/
theorem declared_cases {s : Stmt} (regular : Regular.stmt s) (path : Path) :
    s.declared = [] ∨ ∃ id name rest, s.declared = [⟨id, Token.lexeme name, false⟩] ∧
      Sites.stmt path s = ⟨path, .declaration id name⟩ :: rest := by
  cases s with
  | var id name initial =>
      cases initial with
      | none => exact .inr ⟨id, name, _, rfl, rfl⟩
      | some value => exact .inr ⟨id, name, _, rfl, rfl⟩
  | function id name decl => exact .inr ⟨id, name, _, rfl, rfl⟩
  | «class» id name thisId fieldDecls methodDecls => exact .inr ⟨id, name, _, rfl, rfl⟩
  | branch condition thenBranch elseBranch =>
      cases elseBranch with
      | none => exact .inl regular.2.2
      | some elseBranch =>
          refine .inl ?_
          rw [Stmt.declared, regular.2.1.2, regular.2.2.2, List.append_nil]
  | loop condition body => exact .inl regular.2.2
  | _ => exact .inl rfl

def ownSlots (bindings : Bindings) (declared : List Binder) : List Slot :=
  bindings.slotsOf (declared.map (·.id))

theorem ownSlots_append (declared others : List Binder) :
    ownSlots bindings (declared ++ others) =
      ownSlots bindings declared ++ ownSlots bindings others := by
  rw [ownSlots, List.map_append, Bindings.slotsOf_append]
  rfl

theorem stmt_covers {s : Stmt} (regular : Regular.stmt s)
    (bound : ∀ site ∈ Sites.stmt path s, site.Bound bindings) :
    ∀ slot ∈ ownSlots bindings s.declared,
      slot ∈ bindings.slotsOf (Sites.slotted (Sites.stmt path s)) := by
  intro slot member
  rcases declared_cases regular path with none | ⟨id, name, rest, declared, sites⟩
  · rw [none] at member
    cases member
  · rw [declared] at member
    have isBound := bound ⟨path, .declaration id name⟩ (sites ▸ List.mem_cons_self)
    rw [sites]
    change slot ∈ bindings.slotsOf (Site.slotted _ ++ Sites.slotted rest)
    rw [Bindings.slotsOf_append, ← slotsOf_declaration path name isBound]
    exact List.mem_append_left _ member

theorem stmts_covers : ∀ (ss : List Stmt) (path : Path), Regular.stmts ss →
    (∀ site ∈ Sites.stmts path ss, site.Bound bindings) →
    ∀ slot ∈ ownSlots bindings (ss.flatMap Stmt.declared),
      slot ∈ bindings.slotsOf (Sites.slotted (Sites.stmts path ss))
  | [], _, _, _ => fun _ impossible => nomatch impossible
  | s :: rest, path, regular, bound => by
      intro slot member
      have parts := List.forall_mem_append.mp bound
      rw [List.flatMap_cons, ownSlots_append] at member
      rw [Sites.stmts, Sites.slotted, List.flatMap_append, Bindings.slotsOf_append]
      exact List.mem_append.mpr ((List.mem_append.mp member).imp
        (stmt_covers regular.1 parts.1 slot)
        (stmts_covers rest (path.past s) regular.2 parts.2 slot))

theorem ownSlots_of_global : ∀ (ss : List Stmt) (path : Path), path.isLocal = false →
    Regular.stmts ss → (∀ site ∈ Sites.stmts path ss, site.Bound bindings) →
    ownSlots bindings (ss.flatMap Stmt.declared) = []
  | [], _, _, _, _ => rfl
  | s :: rest, path, isGlobal, regular, bound => by
      have parts := List.forall_mem_append.mp bound
      have later := ownSlots_of_global rest (path.past s) (Path.isLocal_past.trans isGlobal)
        regular.2 parts.2
      rw [List.flatMap_cons, ownSlots_append, later, List.append_nil]
      rcases declared_cases regular.1 path with none | ⟨id, name, others, declared, sites⟩
      · rw [none]
        rfl
      · have declares : (bindings.slot? id).isSome = path.isLocal :=
          parts.1 ⟨path, .declaration id name⟩ (sites ▸ List.mem_cons_self)
        rw [isGlobal, Option.isSome_eq_false_iff, Option.isNone_iff_eq_none] at declares
        rw [declared]
        simp [ownSlots, Bindings.slotsOf, declares]

theorem Run.repeatWhile_succ (test : Run Bool) (round : Run Flow) (rounds : Nat) :
    Run.repeatWhile test round (rounds + 1) =
      roundThen test round (Run.repeatWhile test round rounds) := by
  funext n
  unfold roundThen
  cases tested : test n with
  | error stop middle =>
      rw [Outcome.bind_of_error tested]
      simp only [Run.repeatWhile, tested]
  | ok holds middle =>
      rw [Outcome.bind_of_ok tested]
      cases holds with
      | false => simp only [Run.repeatWhile, tested]; rfl
      | true =>
          simp only [Run.repeatWhile, tested, if_true]
          cases ran : round middle with
          | error stop last => rw [Outcome.bind_of_error ran]
          | ok flow last =>
              rw [Outcome.bind_of_ok ran]
              cases flow <;> rfl

/-- The rounds of a loop go alike if each of them does, wherever it starts. -/
theorem repeatWhile_lockstep {test : Exec Bool} {plainTest : Run Bool} {round : Exec Flow}
    {plainRound : Run Flow}
    (tests : ∀ more after last, Step bindings [] w m more after last →
      Lockstep bindings [] more after last test plainTest fun _ a b => b = a)
    (runs : ∀ more after last, Step bindings [] w m more after last →
      Lockstep bindings [] more after last round plainRound (FlowAlike bindings)) :
    ∀ (rounds : Nat) (more : World) (after : Machine) (last : Memory),
      Step bindings [] w m more after last →
      Lockstep bindings [] more after last (Exec.repeatWhile test round rounds)
        (Run.repeatWhile plainTest plainRound rounds) (FlowAlike bindings)
  | 0, more, after, last, step => Lockstep.of_error rfl rfl step.shared.objects.output.symm
  | rounds + 1, more, after, last, step => by
      rw [Exec.repeatWhile_succ, Run.repeatWhile_succ]
      refine (tests more after last step).bind fun holds plainHolds second afterTest lastTest
        tested same => ?_
      rw [same]
      cases holds with
      | false => exact Lockstep.pure tested.shared flowAlike_normal
      | true =>
          have there := step.trans tested
          refine (runs second afterTest lastTest there).bind fun flow plainFlow third afterRound
            lastRound ran alike => ?_
          rw [alike.same]
          cases flow with
          | normal =>
              exact repeatWhile_lockstep tests runs rounds third afterRound lastRound
                (there.trans ran)
          | returned value => exact Lockstep.pure ran.shared ⟨rfl, alike.backs⟩

end Lox.Lexical
