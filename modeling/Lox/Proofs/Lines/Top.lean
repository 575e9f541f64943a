import Lox.Proofs.Machine.Presence
import Lox.Proofs.Twin.Evaluate

set_option autoImplicit false

/-! Statements outside all functions. None of them ends by returning, so a program goes on from statement
to statement until one fails; and a program that stands before another is executed as if it were alone. -/

namespace Lox

namespace Exec

/-- The statements of a program that are executed, in order; if it fails, then at the last of them. -/
def attempted (ctx : Context) : List Stmt → Machine → List Stmt
  | [], _ => []
  | s :: rest, m => s ::
    match stmt ctx s m with
    | .ok .normal after => attempted ctx rest after
    | _ => []

/-- What ends, if it does, without returning. -/
def Falls (x : Exec Flow) : Prop :=
  ∀ ⦃m flow after⦄, x m = .ok flow after → flow = .normal

variable {ctx : Context} {α : Type}

theorem Falls.bind {x : Exec α} {f : α → Exec Flow} (falls : ∀ a, Falls (f a)) : Falls (x >>= f) := by
  intro m flow after done
  obtain ⟨a, middle, _, later⟩ := Outcome.ok_of_bind done
  exact falls a later

theorem falls_normal : Falls (return .normal) := by
  intro m flow after done
  cases done
  rfl

theorem Falls.within {chain : Chain} {x : Exec Flow} (falls : Falls x) : Falls (within chain x) := by
  intro m flow after done
  unfold Exec.within at done
  dsimp only at done
  split at done
  · next result last inner =>
      cases done
      exact falls inner
  · cases done

theorem Falls.repeatWhile {test : Exec Bool} {round : Exec Flow} (falls : Falls round)
    (rounds : Nat) : Falls (repeatWhile test round rounds) := by
  induction rounds with
  | zero =>
      intro m flow after done
      cases done
  | succ rounds ih =>
      rw [repeatWhile_succ]
      refine .bind fun holds => ?_
      cases holds with
      | false => exact falls_normal
      | true =>
          intro m flow after done
          obtain ⟨ended, middle, first, later⟩ := Outcome.ok_of_bind done
          cases falls first
          exact ih later

end Exec

theorem Path.role?_past (path : Path) (s : Stmt) : (path.past s).role? = path.role? := by
  cases path with
  | nil => rfl
  | cons step outer =>
      change Path.role? (step.past s :: outer) = _
      rw [Path.role?_cons, Path.role?_cons, Step.role?_past]

namespace Exec

/-- Sites that no `return` outside a function is among. -/
def Clear (sites : List Site) : Prop :=
  ∀ site ∈ sites, ∀ e, ¬Offends site e

theorem clear_append {sites rest : List Site} : Clear (sites ++ rest) ↔ Clear sites ∧ Clear rest :=
  List.forall_mem_append

variable (ctx : Context)

mutual

/-- Outside all functions, no statement of an accepted program returns. -/
theorem stmt_falls : ∀ (s : Stmt) (path : Path), path.role? = none → Clear (Sites.stmt path s) →
    Falls (stmt ctx s)
  | .expression value, _, _, _ => .bind fun _ => falls_normal
  | .print value, _, _, _ => .bind fun _ => .bind fun _ => falls_normal
  | .var id name none, _, _, _ => .bind fun _ => falls_normal
  | .var id name (some initial), _, _, _ => .bind fun _ => .bind fun _ => falls_normal
  | .block body, path, outside, clear => by
      have inner := stmts_falls body (.block [] :: path) outside clear
      exact .bind fun chain => inner.within
  | .branch condition thenBranch none, path, outside, clear => by
      have chosen := stmt_falls thenBranch path outside (clear_append.mp clear).2
      refine .bind fun value => ?_
      split
      · exact chosen
      · exact falls_normal
  | .branch condition thenBranch (some elseBranch), path, outside, clear => by
      obtain ⟨first, inElse⟩ := clear_append.mp clear
      have one := stmt_falls thenBranch path outside (clear_append.mp first).2
      have two := stmt_falls elseBranch (path.past thenBranch)
        ((Path.role?_past path thenBranch).trans outside) inElse
      refine .bind fun value => ?_
      split
      · exact one
      · exact two
  | .loop condition body, path, outside, clear =>
      (stmt_falls body path outside (clear_append.mp clear).2).repeatWhile _
  | .function id name decl, _, _, _ => .bind fun _ => .bind fun _ => falls_normal
  | .ret keyword none, path, outside, clear =>
      absurd (.returnOutsideFunction outside) (clear _ List.mem_cons_self _)
  | .ret keyword (some value), path, outside, clear =>
      absurd (.returnOutsideFunction outside) (clear _ List.mem_cons_self _)
  | .class id name thisId fieldDecls methodDecls, _, _, _ =>
      .bind fun _ => .bind fun _ => .bind fun _ => .bind fun _ => .bind fun _ => .bind fun _ =>
        falls_normal

theorem stmts_falls : ∀ (ss : List Stmt) (path : Path), path.role? = none →
    Clear (Sites.stmts path ss) → Falls (stmts ctx ss)
  | [], _, _, _ => falls_normal
  | s :: rest, path, outside, clear => by
      obtain ⟨first, others⟩ := clear_append.mp clear
      have later := stmts_falls rest (path.past s) ((Path.role?_past path s).trans outside) others
      intro m flow after done
      obtain ⟨ended, middle, ran, done⟩ := Outcome.ok_of_bind done
      cases stmt_falls s path outside first ran
      exact later done

end

variable {ctx}

theorem stmts_cons_of_normal {s : Stmt} {rest : List Stmt} {m after : Machine}
    (ran : stmt ctx s m = .ok .normal after) : stmts ctx (s :: rest) m = stmts ctx rest after :=
  Outcome.bind_of_ok ran

theorem stmts_cons_of_error {s : Stmt} {rest : List Stmt} {m after : Machine} {stop : Stop}
    (failed : stmt ctx s m = .error stop after) : stmts ctx (s :: rest) m = .error stop after :=
  Outcome.bind_of_error failed

theorem attempted_cons_of_normal {s : Stmt} {rest : List Stmt} {m after : Machine}
    (ran : stmt ctx s m = .ok .normal after) :
    attempted ctx (s :: rest) m = s :: attempted ctx rest after := by
  conv_lhs => unfold attempted
  rw [ran]

theorem attempted_cons_of_error {s : Stmt} {rest : List Stmt} {m after : Machine} {stop : Stop}
    (failed : stmt ctx s m = .error stop after) : attempted ctx (s :: rest) m = [s] := by
  unfold attempted
  rw [failed]

/-- A program that ends is executed as a whole, and then what stands behind it. -/
theorem append_of_normal {ss : List Stmt} {m after : Machine}
    (ran : stmts ctx ss m = .ok .normal after) (rest : List Stmt) :
    stmts ctx (ss ++ rest) m = stmts ctx rest after ∧
      attempted ctx (ss ++ rest) m = attempted ctx ss m ++ attempted ctx rest after := by
  induction ss generalizing m with
  | nil =>
      cases ran
      exact ⟨rfl, rfl⟩
  | cons s ss ih =>
      obtain ⟨flow, middle, first, later⟩ := Outcome.ok_of_bind ran
      cases flow with
      | returned value => cases later
      | normal =>
          obtain ⟨same, sameAttempt⟩ := ih later
          rw [List.cons_append, stmts_cons_of_normal first, attempted_cons_of_normal first,
            attempted_cons_of_normal first, List.cons_append, same, sameAttempt]
          exact ⟨rfl, rfl⟩

/-- After a program that fails, nothing is executed. -/
theorem append_of_error {ss : List Stmt} {m after : Machine} {stop : Stop}
    (failed : stmts ctx ss m = .error stop after) (rest : List Stmt) :
    stmts ctx (ss ++ rest) m = .error stop after ∧
      attempted ctx (ss ++ rest) m = attempted ctx ss m := by
  induction ss generalizing m with
  | nil => cases failed
  | cons s ss ih =>
      cases first : stmt ctx s m with
      | error stop' middle =>
          rw [stmts_cons_of_error first] at failed
          rw [List.cons_append, stmts_cons_of_error first, attempted_cons_of_error first,
            attempted_cons_of_error first]
          exact ⟨failed, rfl⟩
      | ok flow middle =>
          cases flow with
          | returned value =>
              rw [show stmts ctx (s :: ss) m = .ok (.returned value) middle from
                Outcome.bind_of_ok first] at failed
              cases failed
          | normal =>
              rw [stmts_cons_of_normal first] at failed
              obtain ⟨same, sameAttempt⟩ := ih failed
              rw [List.cons_append, stmts_cons_of_normal first, attempted_cons_of_normal first,
                attempted_cons_of_normal first, same, sameAttempt]
              exact ⟨rfl, rfl⟩

end Exec

/-- A machine on which a program may be executed from its beginning. -/
structure Runnable (known : Site → Prop) (bindings : Bindings) (program : List Stmt) (m : Machine) :
    Prop where
  vouched : Vouched known bindings
  sound : m.Sound known bindings
  sites : ∀ site ∈ Sites.program program, known site
  regular : Regular.stmts program

namespace Runnable

variable {known known' : Site → Prop} {bindings bindings' : Bindings} {s : Stmt}
  {program program' rest : List Stmt} {m n : Machine} {maxDepth bound : Nat}

theorem falls (runnable : Runnable known bindings program m) (ctx : Context) :
    Exec.Falls (Exec.stmts ctx program) :=
  Exec.stmts_falls ctx program [] rfl fun site member =>
    runnable.vouched.clean site (runnable.sites site member)

/-- The first statement, which the guarded interpreter executes alike. -/
theorem head (runnable : Runnable known bindings (s :: rest) m) (maxDepth bound : Nat) :
    Keeps known bindings m
      (Guarded.stmt Guarded.quiet (Guarded.context Guarded.quiet bindings maxDepth bound) s)
      (Exec.stmt (Exec.context bindings maxDepth bound) s) fun after flow =>
        flow = .normal ∧ Runnable known bindings rest after := by
  obtain ⟨vouched, sound, sites, regular⟩ := runnable
  obtain ⟨own, others⟩ := List.forall_mem_append.mp sites
  have calls : CallsAlike known (Exec.context bindings maxDepth bound).bindings
      (Guarded.call Guarded.quiet bindings maxDepth bound)
      (Exec.context bindings maxDepth bound).call :=
    call_keeps vouched Guarded.quiet maxDepth bound
  have keeps := stmt_keeps vouched Guarded.quiet calls s [] m rfl ⟨sound, Environment.covers_nil _⟩ own
    regular.1
  have falls := Exec.stmt_falls (Exec.context bindings maxDepth bound) s [] rfl fun site member =>
    vouched.clean site (own site member)
  refine ⟨keeps.same, ?_⟩
  have kept := keeps.kept
  cases ran : Exec.stmt (Exec.context bindings maxDepth bound) s m with
  | error stop after =>
      rw [ran] at kept
      exact kept
  | ok flow after =>
      rw [ran] at kept
      exact ⟨kept.1, falls ran, vouched, kept.1.sound, others, regular.2⟩

/-- Of two programs one after the other, the first can be executed, and if it ends then the second. -/
theorem split (runnable : Runnable known bindings (program ++ rest) m) :
    Runnable known bindings program m ∧ ∀ flow after,
      Exec.stmts (Exec.context bindings maxDepth bound) program m = .ok flow after →
        Runnable known bindings rest after := by
  induction program generalizing m with
  | nil =>
      constructor
      · exact ⟨runnable.vouched, runnable.sound, List.forall_mem_nil _, trivial⟩
      · intro flow after done
        cases done
        exact runnable
  | cons s program ih =>
      have parts := List.forall_mem_append.mp runnable.sites
      have tail : Runnable known bindings (program ++ rest) m :=
        ⟨runnable.vouched, runnable.sound, parts.2, runnable.regular.2⟩
      have front := (ih tail).1
      constructor
      · exact ⟨runnable.vouched, runnable.sound, List.forall_mem_append.mpr ⟨parts.1, front.sites⟩,
          runnable.regular.1, front.regular⟩
      · intro flow after done
        obtain ⟨ended, middle, first, later⟩ := Outcome.ok_of_bind done
        have kept := (runnable.head maxDepth bound).kept
        rw [first] at kept
        obtain ⟨-, rfl, further⟩ := kept
        exact (ih further).2 flow after later

theorem sound_after (runnable : Runnable known bindings program m) {flow : Flow} {after : Machine}
    (ran : Exec.stmts (Exec.context bindings maxDepth bound) program m = .ok flow after) :
    after.Sound known bindings := by
  rw [← List.append_nil program] at runnable
  exact (runnable.split.2 flow after ran).sound

/-- Programs that are alike are executed alike, statement by statement. -/
theorem twins {w : Correspondence} {start start' : Sink} (binds : w.Binds bindings bindings')
    (alike : Stmts.Like w.likeness program program') (one : Runnable known bindings program m)
    (two : Runnable known' bindings' program' n) (twin : Machine.Twin w start start' m n)
    (maxDepth bound : Nat) :
    Exec.Meets w start start' (Exec.stmts (Exec.context bindings maxDepth bound) program m)
        (Exec.stmts (Exec.context bindings' maxDepth bound) program' n) ∧
      Stmts.Like w.likeness (Exec.attempted (Exec.context bindings maxDepth bound) program m)
        (Exec.attempted (Exec.context bindings' maxDepth bound) program' n) := by
  have settings : Exec.Context.Twin w start start' _ _ :=
    Guarded.context_twin binds maxDepth bound
  induction program generalizing program' m n with
  | nil =>
      cases alike
      exact ⟨.ok twin, .nil⟩
  | cons s rest ih =>
      cases alike with
      | cons head tail =>
          have first := one.head maxDepth bound
          have second := two.head maxDepth bound
          have meets := (Guarded.parallel_twins settings).stmt head m n twin
          rw [first.same, second.same] at meets
          have kept := first.kept
          have kept' := second.kept
          cases ran : Exec.stmt (Exec.context bindings maxDepth bound) s m with
          | error stop after =>
              cases ran' : Exec.stmt (Exec.context bindings' maxDepth bound) _ n with
              | ok flow' after' =>
                  rw [ran, ran'] at meets
                  cases meets
              | error stop' after' =>
                  rw [ran, ran'] at meets
                  rw [Exec.stmts_cons_of_error ran, Exec.stmts_cons_of_error ran',
                    Exec.attempted_cons_of_error ran, Exec.attempted_cons_of_error ran']
                  cases meets with
                  | error stops twin => exact ⟨.error stops twin, .cons head .nil⟩
          | ok flow after =>
              cases ran' : Exec.stmt (Exec.context bindings' maxDepth bound) _ n with
              | error stop' after' =>
                  rw [ran, ran'] at meets
                  cases meets
              | ok flow' after' =>
                  rw [ran, ran'] at meets
                  rw [ran] at kept
                  rw [ran'] at kept'
                  obtain ⟨-, rfl, further⟩ := kept
                  obtain ⟨-, rfl, further'⟩ := kept'
                  rw [Exec.stmts_cons_of_normal ran, Exec.stmts_cons_of_normal ran',
                    Exec.attempted_cons_of_normal ran, Exec.attempted_cons_of_normal ran']
                  cases meets with
                  | ok twin =>
                      obtain ⟨later, attempts⟩ := ih tail further further' twin
                      exact ⟨later, .cons head attempts⟩

end Runnable
end Lox
