import Lox.Proofs.Machine.Keeps
import Lox.Proofs.Outcome
import Lox.Proofs.Return.Functions
import Lox.Scope.Resolve

set_option autoImplicit false

/-! Where `return` stands. A program that is accepted has no `return` outside of functions and none with
a value in an initializer; and code comes to an end by a `return` only if one stands in it. -/

namespace Lox

mutual

/-- The values of the `return` statements in a statement, those in the functions in it left out. -/
def Stmt.returns : Stmt → List (Option Expr)
  | .ret _ value => [value]
  | .block body => Stmt.returnsOf body
  | .branch _ thenBranch none => thenBranch.returns
  | .branch _ thenBranch (some elseBranch) => thenBranch.returns ++ elseBranch.returns
  | .loop _ body => body.returns
  | _ => []

def Stmt.returnsOf : List Stmt → List (Option Expr)
  | [] => []
  | s :: rest => s.returns ++ Stmt.returnsOf rest

end

theorem Stmt.returns_of_mem {s : Stmt} : ∀ {ss : List Stmt}, s ∈ ss → ∀ {value : Option Expr},
    value ∈ s.returns → value ∈ Stmt.returnsOf ss
  | _ :: _, .head _, _, among => List.mem_append_left _ among
  | _ :: _, .tail _ later, _, among => List.mem_append_right _ (Stmt.returns_of_mem later among)

/-- An initializer that returns nothing but itself: no `return` in it has a value. -/
def FunctionDecl.IsModest (decl : FunctionDecl) : Prop :=
  decl.kind = .initializer → ∀ value ∈ Stmt.returnsOf decl.body, value = none

/-! ## What is accepted -/

/-- A `return` with a value, or with none, is allowed within functions of some role. -/
def Allowed (role : Option FunctionKind) (value : Option Expr) : Prop :=
  role ≠ none ∧ (role = some .initializer → value = none)

namespace Resolve

variable {place after : Place} {bindings last : Bindings}

theorem declare_role {ready : Bool} {id : NodeId} {name : Token}
    (done : declare place ready id name bindings = .ok after last) : after.role = place.role := by
  unfold declare at done
  cases scopes : place.scopes with
  | nil =>
      rw [scopes] at done
      cases done
      rfl
  | cons scope outer =>
      simp only [scopes] at done
      by_cases twice : scope.any (·.name == name.lexeme)
      · rw [if_pos twice] at done
        cases done
      · rw [if_neg twice] at done
        obtain ⟨slot, middle, -, rest⟩ := Outcome.ok_of_bind done
        cases rest
        rfl

theorem markReady_role (place : Place) (name : String) : (place.markReady name).role = place.role := by
  unfold Place.markReady
  split <;> rfl

theorem declareParams_role : ∀ {params : List Param} {place after : Place} {bindings last : Bindings},
    declareParams place params bindings = .ok after last → after.role = place.role
  | [], _, _, _, _, done => by
      cases done
      rfl
  | param :: rest, place, after, bindings, last, done => by
      obtain ⟨inner, middle, first, later⟩ := Outcome.ok_of_bind done
      exact (declareParams_role later).trans (declare_role first)

theorem allowed_of_ret {keyword : Token} {value : Option Expr}
    (done : stmt place (.ret keyword value) bindings = .ok after last) :
    Allowed place.role value ∧ after.role = place.role := by
  obtain ⟨scopes, role, inClass, inField⟩ := place
  cases role with
  | none => cases done
  | some role =>
      cases value with
      | none =>
          cases done
          exact ⟨⟨nofun, fun _ => rfl⟩, rfl⟩
      | some value =>
          cases role with
          | initializer => cases done
          | function =>
              obtain ⟨_, _, -, rest⟩ := Outcome.ok_of_bind done
              cases rest
              exact ⟨⟨nofun, nofun⟩, rfl⟩
          | method =>
              obtain ⟨_, _, -, rest⟩ := Outcome.ok_of_bind done
              cases rest
              exact ⟨⟨nofun, nofun⟩, rfl⟩

mutual

theorem returns_of_stmt : ∀ {s : Stmt} {place after : Place} {bindings last : Bindings},
    stmt place s bindings = .ok after last →
      (∀ value ∈ s.returns, Allowed place.role value) ∧ after.role = place.role
  | .expression value, _, _, _, _, done => by
      obtain ⟨_, _, -, rest⟩ := Outcome.ok_of_bind done
      cases rest
      exact ⟨nofun, rfl⟩
  | .print value, _, _, _, _, done => by
      obtain ⟨_, _, -, rest⟩ := Outcome.ok_of_bind done
      cases rest
      exact ⟨nofun, rfl⟩
  | .var id name none, _, _, _, _, done => by
      obtain ⟨inside, _, first, rest⟩ := Outcome.ok_of_bind done
      cases rest
      exact ⟨nofun, (markReady_role inside _).trans (declare_role first)⟩
  | .var id name (some value), _, _, _, _, done => by
      obtain ⟨inside, _, first, rest⟩ := Outcome.ok_of_bind done
      obtain ⟨_, _, -, rest⟩ := Outcome.ok_of_bind rest
      cases rest
      exact ⟨nofun, (markReady_role inside _).trans (declare_role first)⟩
  | .block body, place, _, _, _, done => by
      obtain ⟨inner, _, first, rest⟩ := Outcome.ok_of_bind done
      cases rest
      exact ⟨(returns_of_stmts first).1, rfl⟩
  | .branch condition thenBranch none, _, _, _, _, done => by
      obtain ⟨_, _, -, rest⟩ := Outcome.ok_of_bind done
      obtain ⟨middle, _, one, rest⟩ := Outcome.ok_of_bind rest
      cases rest
      have chosen := returns_of_stmt one
      exact chosen
  | .branch condition thenBranch (some elseBranch), _, _, _, _, done => by
      obtain ⟨_, _, -, rest⟩ := Outcome.ok_of_bind done
      obtain ⟨middle, _, one, two⟩ := Outcome.ok_of_bind rest
      obtain ⟨first, same⟩ := returns_of_stmt one
      obtain ⟨second, still⟩ := returns_of_stmt two
      rw [same] at second still
      exact ⟨List.forall_mem_append.mpr ⟨first, second⟩, still⟩
  | .loop condition body, _, _, _, _, done => by
      obtain ⟨_, _, -, rest⟩ := Outcome.ok_of_bind done
      have repeated := returns_of_stmt rest
      exact repeated
  | .function id name decl, _, _, _, _, done => by
      obtain ⟨inside, _, first, rest⟩ := Outcome.ok_of_bind done
      obtain ⟨_, _, -, rest⟩ := Outcome.ok_of_bind rest
      cases rest
      exact ⟨nofun, declare_role first⟩
  | .ret keyword value, place, _, _, _, done => by
      have allowed := allowed_of_ret done
      exact ⟨List.forall_mem_singleton.mpr allowed.1, allowed.2⟩
  | .class id name thisId fieldDecls methodDecls, _, _, _, _, done => by
      obtain ⟨inside, _, first, rest⟩ := Outcome.ok_of_bind done
      cases repeated : repeatedMember? [] (memberNames fieldDecls methodDecls) with
      | some member =>
          simp only [repeated] at rest
          cases rest
      | none =>
          simp only [repeated] at rest
          obtain ⟨_, _, -, rest⟩ := Outcome.ok_of_bind rest
          obtain ⟨_, _, -, rest⟩ := Outcome.ok_of_bind rest
          obtain ⟨_, _, -, rest⟩ := Outcome.ok_of_bind rest
          cases rest
          exact ⟨nofun, declare_role first⟩

theorem returns_of_stmts : ∀ {ss : List Stmt} {place after : Place} {bindings last : Bindings},
    stmts place ss bindings = .ok after last →
      (∀ value ∈ Stmt.returnsOf ss, Allowed place.role value) ∧ after.role = place.role
  | [], _, _, _, _, done => by
      cases done
      exact ⟨nofun, rfl⟩
  | s :: rest, _, _, _, _, done => by
      obtain ⟨middle, _, one, two⟩ := Outcome.ok_of_bind done
      obtain ⟨first, same⟩ := returns_of_stmt one
      obtain ⟨second, still⟩ := returns_of_stmts two
      rw [same] at second still
      exact ⟨List.forall_mem_append.mpr ⟨first, second⟩, still⟩

end

mutual

theorem expr_modest : ∀ {e : Expr} {place : Place} {bindings last : Bindings} {u : Unit},
    expr place e bindings = .ok u last → Functions.expr FunctionDecl.IsPlain (fun _ => True) e →
      Functions.expr FunctionDecl.IsPlain FunctionDecl.IsModest e
  | .literal _, _, _, _, _, _, _ => trivial
  | .unary _ right, _, _, _, _, done, all => expr_modest (e := right) done all
  | .binary left _ right, _, _, _, _, done, all => by
      obtain ⟨_, _, one, two⟩ := Outcome.ok_of_bind done
      exact ⟨expr_modest one all.1, expr_modest two all.2⟩
  | .logical left _ right, _, _, _, _, done, all => by
      obtain ⟨_, _, one, two⟩ := Outcome.ok_of_bind done
      exact ⟨expr_modest one all.1, expr_modest two all.2⟩
  | .ternary condition thenBranch elseBranch, _, _, _, _, done, all => by
      obtain ⟨_, _, test, rest⟩ := Outcome.ok_of_bind done
      obtain ⟨_, _, one, two⟩ := Outcome.ok_of_bind rest
      exact ⟨expr_modest test all.1, expr_modest one all.2.1, expr_modest two all.2.2⟩
  | .grouping inner, _, _, _, _, done, all => expr_modest (e := inner) done all
  | .variable _ _, _, _, _, _, _, _ => trivial
  | .assign _ _ value, _, _, _, _, done, all => by
      obtain ⟨_, _, one, -⟩ := Outcome.ok_of_bind done
      exact expr_modest (e := value) one all
  | .call callee _ arguments, _, _, _, _, done, all => by
      obtain ⟨_, _, one, two⟩ := Outcome.ok_of_bind done
      exact ⟨expr_modest one all.1, exprs_modest two all.2⟩
  | .function decl, _, _, _, _, done, all => ⟨all.1, (function_modest done all.2).1⟩
  | .get object _, _, _, _, _, done, all => expr_modest (e := object) done all
  | .set object _ value, _, _, _, _, done, all => by
      obtain ⟨_, _, two, one⟩ := Outcome.ok_of_bind done
      exact ⟨expr_modest one all.1, expr_modest two all.2⟩
  | .this _ _, _, _, _, _, _, _ => trivial

theorem exprs_modest : ∀ {es : List Expr} {place : Place} {bindings last : Bindings} {u : Unit},
    exprs place es bindings = .ok u last → Functions.exprs FunctionDecl.IsPlain (fun _ => True) es →
      Functions.exprs FunctionDecl.IsPlain FunctionDecl.IsModest es
  | [], _, _, _, _, _, _ => trivial
  | e :: rest, _, _, _, _, done, all => by
      obtain ⟨_, _, one, two⟩ := Outcome.ok_of_bind done
      exact ⟨expr_modest one all.1, exprs_modest two all.2⟩

theorem stmt_modest : ∀ {s : Stmt} {place after : Place} {bindings last : Bindings},
    stmt place s bindings = .ok after last →
      Functions.stmt FunctionDecl.IsPlain (fun _ => True) s →
        Functions.stmt FunctionDecl.IsPlain FunctionDecl.IsModest s
  | .expression value, _, _, _, _, done, all => by
      obtain ⟨_, _, one, -⟩ := Outcome.ok_of_bind done
      exact expr_modest (e := value) one all
  | .print value, _, _, _, _, done, all => by
      obtain ⟨_, _, one, -⟩ := Outcome.ok_of_bind done
      exact expr_modest (e := value) one all
  | .var _ _ none, _, _, _, _, _, _ => trivial
  | .var _ _ (some value), _, _, _, _, done, all => by
      obtain ⟨_, _, -, rest⟩ := Outcome.ok_of_bind done
      obtain ⟨_, _, one, -⟩ := Outcome.ok_of_bind rest
      exact expr_modest (e := value) one all
  | .block body, _, _, _, _, done, all => by
      obtain ⟨_, _, inner, -⟩ := Outcome.ok_of_bind done
      exact stmts_modest (inner : stmts _ body _ = .ok _ _) all
  | .branch condition thenBranch none, _, _, _, _, done, all => by
      obtain ⟨_, _, test, rest⟩ := Outcome.ok_of_bind done
      obtain ⟨_, _, one, -⟩ := Outcome.ok_of_bind rest
      exact ⟨expr_modest test all.1, stmt_modest one all.2⟩
  | .branch condition thenBranch (some elseBranch), _, _, _, _, done, all => by
      obtain ⟨_, _, test, rest⟩ := Outcome.ok_of_bind done
      obtain ⟨_, _, one, two⟩ := Outcome.ok_of_bind rest
      exact ⟨expr_modest test all.1, stmt_modest one all.2.1, stmt_modest two all.2.2⟩
  | .loop condition body, _, _, _, _, done, all => by
      obtain ⟨_, _, test, rest⟩ := Outcome.ok_of_bind done
      exact ⟨expr_modest test all.1, stmt_modest rest all.2⟩
  | .function _ _ decl, _, _, _, _, done, all => by
      obtain ⟨_, _, -, rest⟩ := Outcome.ok_of_bind done
      obtain ⟨_, _, one, -⟩ := Outcome.ok_of_bind rest
      exact ⟨all.1, (function_modest one all.2).1⟩
  | .ret _ none, _, _, _, _, _, _ => trivial
  | .ret _ (some value), place, _, _, _, done, all => by
      obtain ⟨scopes, role, inClass, inField⟩ := place
      rcases role with _ | (_ | _ | _)
      · cases done
      · obtain ⟨_, _, one, -⟩ := Outcome.ok_of_bind done
        exact expr_modest (e := value) one all
      · obtain ⟨_, _, one, -⟩ := Outcome.ok_of_bind done
        exact expr_modest (e := value) one all
      · cases done
  | .class _ _ _ fieldDecls methodDecls, _, _, _, _, done, all => by
      obtain ⟨_, _, -, rest⟩ := Outcome.ok_of_bind done
      cases repeated : repeatedMember? [] (memberNames fieldDecls methodDecls) with
      | some member =>
          simp only [repeated] at rest
          cases rest
      | none =>
          simp only [repeated] at rest
          obtain ⟨_, _, -, rest⟩ := Outcome.ok_of_bind rest
          obtain ⟨_, _, one, rest⟩ := Outcome.ok_of_bind rest
          obtain ⟨_, _, two, -⟩ := Outcome.ok_of_bind rest
          exact ⟨fields_modest one all.1, methods_modest two all.2⟩

theorem stmts_modest : ∀ {ss : List Stmt} {place after : Place} {bindings last : Bindings},
    stmts place ss bindings = .ok after last →
      Functions.stmts FunctionDecl.IsPlain (fun _ => True) ss →
        Functions.stmts FunctionDecl.IsPlain FunctionDecl.IsModest ss
  | [], _, _, _, _, _, _ => trivial
  | s :: rest, _, _, _, _, done, all => by
      obtain ⟨_, _, one, two⟩ := Outcome.ok_of_bind done
      exact ⟨stmt_modest one all.1, stmts_modest two all.2⟩

theorem function_modest : ∀ {decl : FunctionDecl} {place : Place} {bindings last : Bindings}
    {u : Unit}, function place decl bindings = .ok u last →
      Functions.function FunctionDecl.IsPlain (fun _ => True) decl →
        Functions.function FunctionDecl.IsPlain FunctionDecl.IsModest decl ∧
          ∀ value ∈ Stmt.returnsOf decl.body, Allowed place.role value
  | .mk _ _ params body, place, _, _, _, done, all => by
      obtain ⟨inside, _, first, rest⟩ := Outcome.ok_of_bind done
      obtain ⟨_, _, inner, -⟩ := Outcome.ok_of_bind rest
      refine ⟨stmts_modest (inner : stmts _ body _ = .ok _ _) all, fun value member => ?_⟩
      have allowed := (returns_of_stmts inner).1 value member
      rw [declareParams_role first] at allowed
      exact allowed

theorem methods_modest : ∀ {decls : List FunctionDecl} {place : Place} {bindings last : Bindings}
    {u : Unit}, methods place decls bindings = .ok u last →
      Functions.methods FunctionDecl.IsPlain (fun _ => True) decls →
        Functions.methods FunctionDecl.IsPlain FunctionDecl.IsModest decls
  | [], _, _, _, _, _, _ => trivial
  | method :: rest, _, _, _, _, done, all => by
      obtain ⟨_, _, one, two⟩ := Outcome.ok_of_bind done
      obtain ⟨inner, allowed⟩ := function_modest one all.1.2
      refine ⟨⟨fun isInitializer value member => ?_, inner⟩, methods_modest two all.2⟩
      refine (allowed value member).2 ?_
      simp [methodRole, isInitializer]

theorem fields_modest : ∀ {decls : List FieldDecl} {place : Place} {bindings last : Bindings}
    {u : Unit}, fields place decls bindings = .ok u last →
      Functions.fields FunctionDecl.IsPlain (fun _ => True) decls →
        Functions.fields FunctionDecl.IsPlain FunctionDecl.IsModest decls
  | [], _, _, _, _, _, _ => trivial
  | .mk _ none :: rest, _, _, _, _, done, all =>  @fields_modest rest _ _ _ _ done all
  | .mk _ (some value) :: rest, _, _, _, _, done, all => by
      obtain ⟨_, _, one, two⟩ := Outcome.ok_of_bind done
      exact ⟨expr_modest one all.1, fields_modest two all.2⟩

end
end Resolve

/-- No `return` stands outside of functions in a program that is accepted. -/
theorem returns_of_accepted {bindings : Bindings} {program : List Stmt}
    (accepted : (resolve bindings program).1 = none) : Stmt.returnsOf program = [] := by
  unfold resolve at accepted
  cases done : Resolve.stmts Place.top program bindings with
  | error e last =>
      rw [done] at accepted
      cases accepted
  | ok place last =>
      refine List.eq_nil_iff_forall_not_mem.mpr fun value member => ?_
      exact ((Resolve.returns_of_stmts done).1 value member).1 rfl

theorem modest_of_accepted {bindings : Bindings} {program : List Stmt}
    (accepted : (resolve bindings program).1 = none)
    (all : Functions.stmts FunctionDecl.IsPlain (fun _ => True) program) :
    Functions.stmts FunctionDecl.IsPlain FunctionDecl.IsModest program := by
  unfold resolve at accepted
  cases done : Resolve.stmts Place.top program bindings with
  | error e last =>
      rw [done] at accepted
      cases accepted
  | ok place last => exact Resolve.stmts_modest done all

/-! ## What is run -/

namespace Exec

/-- Code comes to an end by a `return` only if one is among the given ones, and with a value other than
`nil` only if that has a value. -/
def ReturnsFrom (values : List (Option Expr)) (run : Exec Flow) : Prop :=
  ∀ m v after, run m = .ok (.returned v) after → ∃ value ∈ values, value = none → v = .nil

namespace ReturnsFrom

variable {α : Type} {values more : List (Option Expr)} {run : Exec Flow}

theorem bind {x : Exec α} {f : α → Exec Flow} (later : ∀ a, ReturnsFrom values (f a)) :
    ReturnsFrom values (x >>= f) := by
  intro m v after done
  obtain ⟨a, middle, -, rest⟩ := Outcome.ok_of_bind done
  exact later a middle v after rest

theorem mono (returns : ReturnsFrom values run) (all : ∀ value ∈ values, value ∈ more) :
    ReturnsFrom more run := by
  intro m v after done
  obtain ⟨value, member, bare⟩ := returns m v after done
  exact ⟨value, all value member, bare⟩

theorem pure : ReturnsFrom values (return .normal) := by
  intro m v after done
  cases done

theorem within (inner : ReturnsFrom values run) (chain : Chain) :
    ReturnsFrom values (within chain run) := by
  intro m v after done
  unfold Exec.within at done
  dsimp only at done
  split at done
  · next result last ran =>
      cases done
      exact inner _ v last ran
  · cases done

theorem deeper (inner : ReturnsFrom values run) : ReturnsFrom values (deeper run) := by
  intro m v after done
  unfold Exec.deeper at done
  split at done
  · next result last ran =>
      cases done
      exact inner _ v last ran
  · cases done

theorem roundThen {again : Exec Flow} (inner : ReturnsFrom values run)
    (later : ReturnsFrom values again) (test : Exec Bool) :
    ReturnsFrom values (roundThen test run again) := by
  refine bind fun holds => ?_
  cases holds with
  | false => exact pure
  | true =>
      intro m v after done
      obtain ⟨flow, middle, ran, rest⟩ := Outcome.ok_of_bind done
      cases flow with
      | normal => exact later middle v after rest
      | returned value =>
          cases rest
          exact inner m v after ran

theorem repeatWhile (inner : ReturnsFrom values run) (test : Exec Bool) :
    ∀ rounds : Nat, ReturnsFrom values (repeatWhile test run rounds) := by
  intro rounds
  induction rounds with
  | zero =>
      intro m v after done
      cases done
  | succ rounds ih =>
      rw [repeatWhile_succ]
      exact inner.roundThen ih test

end ReturnsFrom

variable (ctx : Context)

mutual

theorem stmt_returns : ∀ s : Stmt, ReturnsFrom s.returns (stmt ctx s)
  | .expression _ => .bind fun _ => .pure
  | .print _ => .bind fun _ => .bind fun _ => .pure
  | .var _ _ none => .bind fun _ => .pure
  | .var _ _ (some _) => .bind fun _ => .bind fun _ => .pure
  | .block body => .bind fun chain => .within (stmts_returns body) chain
  | .branch _ thenBranch none => by
      refine .bind fun condition => ?_
      split
      · exact stmt_returns thenBranch
      · exact .pure
  | .branch _ thenBranch (some elseBranch) => by
      refine .bind fun condition => ?_
      split
      · exact (stmt_returns thenBranch).mono fun _ => List.mem_append_left _
      · exact (stmt_returns elseBranch).mono fun _ => List.mem_append_right _
  | .loop condition body => .repeatWhile (stmt_returns body) _ ctx.rounds
  | .function _ _ _ => .bind fun _ => .bind fun _ => .pure
  | .ret _ none => by
      intro m v after done
      cases done
      exact ⟨none, List.mem_singleton_self _, fun _ => rfl⟩
  | .ret _ (some value) => by
      intro m v after _
      refine ⟨some value, List.mem_singleton_self _, fun without => ?_⟩
      cases without
  | .class _ _ _ _ _ =>
      .bind fun _ => .bind fun _ => .bind fun _ => .bind fun _ => .bind fun _ => .bind fun _ => .pure

theorem stmts_returns : ∀ ss : List Stmt, ReturnsFrom (Stmt.returnsOf ss) (stmts ctx ss)
  | [] => .pure
  | s :: rest => by
      intro m v after done
      obtain ⟨flow, middle, ran, later⟩ := Outcome.ok_of_bind done
      cases flow with
      | normal =>
          exact ((stmts_returns rest).mono fun _ => List.mem_append_right _) middle v after later
      | returned value =>
          cases later
          exact ((stmt_returns s).mono fun _ => List.mem_append_left _) m v after ran

end

end Exec

/-- A statement of a program that is accepted does not end by a `return`. -/
theorem stmt_goes_on {bindings : Bindings} {program : List Stmt}
    (accepted : (resolve bindings program).1 = none) {s : Stmt} (member : s ∈ program) (ctx : Context)
    (m : Machine) (v : Value) (after : Machine) : Exec.stmt ctx s m ≠ .ok (.returned v) after := by
  intro done
  obtain ⟨value, among, -⟩ := Exec.stmt_returns ctx s m v after done
  have none := Stmt.returns_of_mem member among
  rw [returns_of_accepted accepted] at none
  cases none

end Lox
