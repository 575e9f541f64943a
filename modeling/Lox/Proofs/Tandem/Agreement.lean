import Lox.Proofs.Outcome
import Lox.Proofs.Tandem.Steps

set_option autoImplicit false

/-! Two interpreters in tandem. A bond relates their states; if it holds after each step of a program that
both take, it holds of all that the program does, and both end alike. By induction on the code. -/

namespace Lox

/-- A value that names no object. -/
def Value.IsData : Value → Prop
  | .function _ => False
  | .class _ => False
  | .instance _ => False
  | _ => True

namespace Value

theorem isData_ofLiteral (value : Literal) : (ofLiteral value).IsData := by
  cases value <;> trivial

theorem isData_of_applyUnary {operator : Token.Kind} {right value : Value}
    (found : right.applyUnary operator = .ok value) : value.IsData := by
  unfold applyUnary at found
  split at found
  · split at found <;> cases found
    trivial
  · cases found
    trivial
  · cases found

theorem isData_of_applyNumeric {operator : Token.Kind} {a b : Float} {value : Value}
    (found : applyNumeric operator a b = .ok value) : value.IsData := by
  unfold applyNumeric at found
  split at found <;> cases found <;> trivial

theorem isData_of_applyBinary {operator : Token.Kind} {left right value : Value}
    (found : left.applyBinary operator right = .ok value) : value.IsData := by
  unfold applyBinary at found
  split at found
  · split at found <;> cases found <;> trivial
  · cases found
    trivial
  · cases found
    trivial
  · split at found
    · exact isData_of_applyNumeric found
    · cases found

end Value

/-- Where two interpreters are: a state of each, and what is known besides. -/
structure Couple (γ σ τ : Type) where
  ghost : γ
  left : σ
  right : τ

/-- How two interpreters are related while they go through one program: where they agree, what can come
later, which values they have, and where a variable can be declared. -/
structure Bond (γ σ τ : Type) where
  agree : Couple γ σ τ → Prop
  later : Couple γ σ τ → Couple γ σ τ → Prop
  has : Couple γ σ τ → Value → Prop
  opens : Couple γ σ τ → Prop
  refl : ∀ w, later w w
  trans : ∀ {first second third}, later first second → later second third → later first third
  keeps : ∀ {w after value}, later w after → has w value → has after value
  stays : ∀ {w after}, later w after → opens w → opens after
  data : ∀ w {value}, value.IsData → has w value

variable {γ σ τ α β : Type} {bond : Bond γ σ τ} {w : Couple γ σ τ}

namespace Bond

def hasFlow (bond : Bond γ σ τ) (w : Couple γ σ τ) : Flow → Prop
  | .normal => True
  | .returned value => bond.has w value

def hasAll (bond : Bond γ σ τ) (w : Couple γ σ τ) (values : List Value) : Prop :=
  ∀ value ∈ values, bond.has w value

/-- The first values of some fields. -/
structure Fills (bond : Bond γ σ τ) (decls : List FieldDecl) (w : Couple γ σ τ)
    (values : Table String Value) : Prop where
  keys : ∀ name, (values.get? name).isSome = true ↔ ∃ decl ∈ decls, decl.name.lexeme = name
  has : ∀ name value, values.get? name = some value → bond.has w value

/-- Nothing is asked of what a step yields. -/
def any (_ : Couple γ σ τ) (_ : α) : Prop :=
  True

theorem hasAll_later {after : Couple γ σ τ} {values : List Value} (later : bond.later w after)
    (all : bond.hasAll w values) : bond.hasAll after values :=
  fun value member => bond.keeps later (all value member)

end Bond

/-- Two results that are alike: both interpreters come to the same value or stop for the same reason, and
their states agree and come later than the ones before. -/
inductive Concurs (bond : Bond γ σ τ) (w : Couple γ σ τ) (good : Couple γ σ τ → α → Prop) :
    EStateM.Result Stop σ α → EStateM.Result Stop τ α → Prop
  | ok {ghost : γ} {left : σ} {right : τ} {a : α} (later : bond.later w ⟨ghost, left, right⟩)
      (agree : bond.agree ⟨ghost, left, right⟩) (isGood : good ⟨ghost, left, right⟩ a) :
      Concurs bond w good (.ok a left) (.ok a right)
  | error {ghost : γ} {left : σ} {right : τ} {stop : Stop} (later : bond.later w ⟨ghost, left, right⟩)
      (agree : bond.agree ⟨ghost, left, right⟩) :
      Concurs bond w good (.error stop left) (.error stop right)

namespace Concurs

variable {good better : Couple γ σ τ → α → Prop} {next : Couple γ σ τ → β → Prop}
  {one : EStateM.Result Stop σ α} {two : EStateM.Result Stop τ α}

theorem pure {a : α} (agree : bond.agree w) (isGood : good w a) :
    Concurs bond w good ((return a : EStateM Stop σ α) w.left) ((return a : EStateM Stop τ α) w.right) :=
  .ok (bond.refl w) agree isGood

theorem throw (agree : bond.agree w) (stop : Stop) :
    Concurs bond w good ((throw stop : EStateM Stop σ α) w.left)
      ((throw stop : EStateM Stop τ α) w.right) :=
  .error (bond.refl w) agree

theorem since {before : Couple γ σ τ} (later : bond.later before w) (concurs : Concurs bond w good one two) :
    Concurs bond before good one two := by
  cases concurs with
  | ok more agree isGood => exact .ok (bond.trans later more) agree isGood
  | error more agree => exact .error (bond.trans later more) agree

theorem imp (concurs : Concurs bond w good one two) (improves : ∀ after a, good after a → better after a) :
    Concurs bond w better one two := by
  cases concurs with
  | ok later agree isGood => exact .ok later agree (improves _ _ isGood)
  | error later agree => exact .error later agree

theorem bind_of {x : EStateM Stop σ α} {y : EStateM Stop τ α} {f : α → EStateM Stop σ β}
    {g : α → EStateM Stop τ β} (first : Concurs bond w good (x w.left) (y w.right))
    (rest : ∀ after a, bond.later w after → bond.agree after → good after a →
      y w.right = .ok a after.right → Concurs bond after next (f a after.left) (g a after.right)) :
    Concurs bond w next ((x >>= f) w.left) ((y >>= g) w.right) := by
  change Concurs bond w next (EStateM.bind x f w.left) (EStateM.bind y g w.right)
  unfold EStateM.bind
  generalize x w.left = here at first ⊢
  generalize y w.right = there at first rest ⊢
  cases first with
  | ok later agree isGood => exact (rest _ _ later agree isGood rfl).since later
  | error later agree => exact .error later agree

theorem bind {x : EStateM Stop σ α} {y : EStateM Stop τ α} {f : α → EStateM Stop σ β}
    {g : α → EStateM Stop τ β} (first : Concurs bond w good (x w.left) (y w.right))
    (rest : ∀ after a, bond.later w after → bond.agree after → good after a →
      Concurs bond after next (f a after.left) (g a after.right)) :
    Concurs bond w next ((x >>= f) w.left) ((y >>= g) w.right) :=
  first.bind_of fun after a later agree isGood _ => rest after a later agree isGood

theorem map {x : EStateM Stop σ α} {y : EStateM Stop τ α} (f : α → β)
    (concurs : Concurs bond w good (x w.left) (y w.right)) :
    Concurs bond w Bond.any ((f <$> x) w.left) ((f <$> y) w.right) := by
  rw [map_eq_pure_bind, map_eq_pure_bind]
  exact concurs.bind fun _ _ _ agree _ => pure agree trivial

theorem ofOperator (agree : bond.agree w) (token : Token) {result : Except RuntimeFault Value}
    (data : ∀ value, result = .ok value → value.IsData) :
    Concurs bond w bond.has ((Steps.ofOperator token result : EStateM Stop σ Value) w.left)
      ((Steps.ofOperator token result : EStateM Stop τ Value) w.right) := by
  cases result with
  | ok value => exact pure agree (bond.data w (data value rfl))
  | error fault => exact throw agree _

theorem receiver (agree : bond.agree w) {object : Value} (has : bond.has w object) (name : Token) :
    Concurs bond w (fun after id => bond.has after (.instance id))
      ((Steps.receiver object name : EStateM Stop σ InstanceId) w.left)
      ((Steps.receiver object name : EStateM Stop τ InstanceId) w.right) := by
  cases object with
  | «instance» id => exact pure agree has
  | _ => exact throw agree _

theorem repeatWhile {test : EStateM Stop σ Bool} {test' : EStateM Stop τ Bool}
    {round : EStateM Stop σ Flow} {round' : EStateM Stop τ Flow}
    (tests : ∀ w, bond.agree w → Concurs bond w Bond.any (test w.left) (test' w.right))
    (runs : ∀ after, bond.later w after → bond.agree after →
      Concurs bond after bond.hasFlow (round after.left) (round' after.right)) (rounds : Nat)
    (agree : bond.agree w) :
    Concurs bond w bond.hasFlow (Steps.repeatWhile test round rounds w.left)
      (Steps.repeatWhile test' round' rounds w.right) := by
  -- The rounds begin further and further on, so the induction is about every couple that comes later.
  suffices all : ∀ after, bond.later w after → bond.agree after →
      Concurs bond after bond.hasFlow (Steps.repeatWhile test round rounds after.left)
        (Steps.repeatWhile test' round' rounds after.right) from all w (bond.refl w) agree
  induction rounds with
  | zero => exact fun after _ agree => throw agree _
  | succ rounds ih =>
    intro after later agree
    refine (tests after agree).bind fun tested holds more agree _ => ?_
    have there := bond.trans later more
    cases holds with
    | false => exact pure agree trivial
    | true =>
      refine (runs tested there agree).bind fun ran flow further agree has => ?_
      cases flow with
      | normal => exact ih ran (bond.trans there further) agree
      | returned value => exact pure agree has

end Concurs

/-! ### The steps of a program -/

/-- Two interpreters whose steps keep a bond, in programs whose classes have some property. -/
structure Tandem (proper : ClassDecl → Prop) (bond : Bond γ σ τ) (one : Steps σ) (two : Steps τ) :
    Prop where
  rounds : one.rounds = two.rounds
  lookUp : ∀ {w} id name, bond.agree w →
    Concurs bond w bond.has (one.lookUp id name w.left) (two.lookUp id name w.right)
  store : ∀ {w value} id name, bond.agree w → bond.has w value →
    Concurs bond w Bond.any (one.store id name value w.left) (two.store id name value w.right)
  declare : ∀ {w value} id name, bond.agree w → bond.opens w → bond.has w value →
    Concurs bond w Bond.any (one.declare id name value w.left) (two.declare id name value w.right)
  close : ∀ {w decl}, bond.agree w → Orderly.function proper decl →
    Concurs bond w bond.has (one.close decl w.left) (two.close decl w.right)
  getProperty : ∀ {w object} name, bond.agree w → bond.has w object →
    Concurs bond w bond.has (one.getProperty object name w.left) (two.getProperty object name w.right)
  setProperty : ∀ {w id value} name, bond.agree w → bond.has w (.instance id) → bond.has w value →
    Concurs bond w Bond.any (one.setProperty id name value w.left) (two.setProperty id name value w.right)
  print : ∀ {w value}, bond.agree w → bond.has w value →
    Concurs bond w Bond.any (one.print value w.left) (two.print value w.right)
  invoke : ∀ {w callee arguments} paren, bond.agree w → bond.has w callee → bond.hasAll w arguments →
    Concurs bond w bond.has (one.invoke callee arguments paren w.left)
      (two.invoke callee arguments paren w.right)
  scope : ∀ {w} {body : EStateM Stop σ Flow} {body' : EStateM Stop τ Flow}, bond.agree w →
    (∀ inner, bond.agree inner → bond.opens inner →
      Concurs bond inner bond.hasFlow (body inner.left) (body' inner.right)) →
    Concurs bond w bond.hasFlow (one.scope body w.left) (two.scope body' w.right)
  makeClass : ∀ {w decl}, bond.agree w → bond.opens w → proper decl →
    Orderly.functions proper decl.methods →
    (∀ inner, bond.agree inner → Concurs bond inner (bond.Fills decl.fields)
      (one.fields Table.empty decl.fields inner.left) (two.fields Table.empty decl.fields inner.right)) →
    Concurs bond w Bond.any
      (one.makeClass decl (one.fields Table.empty decl.fields) w.left)
      (two.makeClass decl (two.fields Table.empty decl.fields) w.right)

namespace Bond.Fills

variable {decls : List FieldDecl} {values : Table String Value}

theorem empty (w : Couple γ σ τ) : bond.Fills [] w Table.empty := by
  constructor <;> simp

theorem later {after : Couple γ σ τ} (fills : bond.Fills decls w values) (later : bond.later w after) :
    bond.Fills decls after values :=
  ⟨fills.keys, fun name value found => bond.keeps later (fills.has name value found)⟩

theorem insert {value : Value} (fills : bond.Fills decls w values) (name : Token)
    (initial : Option Expr) (has : bond.has w value) :
    bond.Fills (decls ++ [.mk name initial]) w (values.insert name.lexeme value) := by
  constructor
  · intro wanted
    rw [Table.get?_insert]
    by_cases same : name.lexeme = wanted
    · simp [same, FieldDecl.name]
    · simp [same, fills.keys, FieldDecl.name]
  · intro wanted found held
    rw [Table.get?_insert] at held
    split at held
    · cases held
      exact has
    · exact fills.has wanted found held

end Bond.Fills

namespace Tandem

variable {proper : ClassDecl → Prop} {one : Steps σ} {two : Steps τ}

section

variable (tandem : Tandem proper bond one two)
include tandem

set_option linter.unusedSectionVars false

mutual

theorem expr : ∀ (e : Expr), Orderly.expr proper e → ∀ w, bond.agree w →
    Concurs bond w bond.has (one.expr e w.left) (two.expr e w.right)
  | .literal value, _, w, agree => .pure agree (bond.data w (Value.isData_ofLiteral value))
  | .unary _ right, orderly, w, agree =>
    (expr right orderly w agree).bind fun _ _ _ agree _ =>
      .ofOperator agree _ fun _ => Value.isData_of_applyUnary
  | .binary left _ right, orderly, w, agree =>
    (expr left orderly.1 w agree).bind fun after _ _ agree _ =>
      (expr right orderly.2 after agree).bind fun _ _ _ agree _ =>
        .ofOperator agree _ fun _ => Value.isData_of_applyBinary
  | .logical left _ right, orderly, w, agree => by
    refine (expr left orderly.1 w agree).bind fun after value _ agree has => ?_
    split
    · exact .pure agree has
    · exact expr right orderly.2 after agree
  | .ternary condition thenBranch elseBranch, orderly, w, agree => by
    refine (expr condition orderly.1 w agree).bind fun after value _ agree _ => ?_
    split
    · exact expr thenBranch orderly.2.1 after agree
    · exact expr elseBranch orderly.2.2 after agree
  | .grouping inner, orderly, w, agree => by
    unfold Steps.expr
    exact expr inner orderly w agree
  | .variable id name, _, _, agree => tandem.lookUp id name agree
  | .assign id name value, orderly, w, agree =>
    (expr value orderly w agree).bind fun _ _ _ agree has =>
      (tandem.store id name agree has).bind fun _ _ later agree _ =>
        .pure agree (bond.keeps later has)
  | .call callee paren arguments, orderly, w, agree =>
    (expr callee orderly.1 w agree).bind fun after _ _ agree has =>
      (exprs arguments orderly.2 after agree).bind fun _ _ later agree all =>
        tandem.invoke paren agree (bond.keeps later has) all
  | .function _, orderly, _, agree => tandem.close agree orderly
  | .get object name, orderly, w, agree =>
    (expr object orderly w agree).bind fun _ _ _ agree has => tandem.getProperty name agree has
  | .set object name value, orderly, w, agree => by
    refine (expr object orderly.1 w agree).bind fun _ _ _ agree has => ?_
    refine (Concurs.receiver agree has name).bind fun after id _ agree isInstance => ?_
    refine (expr value orderly.2 after agree).bind fun _ _ later agree has => ?_
    exact (tandem.setProperty name agree (bond.keeps later isInstance) has).bind
      fun _ _ later agree _ => .pure agree (bond.keeps later has)
  | .this id keyword, _, _, agree => tandem.lookUp id keyword agree

theorem exprs : ∀ (es : List Expr), Orderly.exprs proper es → ∀ w, bond.agree w →
    Concurs bond w bond.hasAll (one.exprs es w.left) (two.exprs es w.right)
  | [], _, _, agree => .pure agree (List.forall_mem_nil _)
  | e :: rest, orderly, w, agree =>
    (expr e orderly.1 w agree).bind fun after _ _ agree has =>
      (exprs rest orderly.2 after agree).bind fun _ _ later agree all =>
        .pure agree (List.forall_mem_cons.mpr ⟨bond.keeps later has, all⟩)

theorem stmt : ∀ (s : Stmt), Orderly.stmt proper s → ∀ w, bond.agree w →
    (bond.opens w ∨ s.declared = []) →
      Concurs bond w bond.hasFlow (one.stmt s w.left) (two.stmt s w.right)
  | .expression value, orderly, w, agree, _ =>
    (expr value orderly w agree).bind fun _ _ _ agree _ => .pure agree trivial
  | .print value, orderly, w, agree, _ =>
    (expr value orderly w agree).bind fun _ _ _ agree has =>
      (tandem.print agree has).bind fun _ _ _ agree _ => .pure agree trivial
  | .var id name none, _, w, agree, either =>
    have nil : bond.has w .nil := bond.data w trivial
    (tandem.declare id name agree (either.resolve_right nofun) nil).bind
      fun _ _ _ agree _ => .pure agree trivial
  | .var id name (some initial), orderly, w, agree, either =>
    (expr initial orderly w agree).bind fun _ _ later agree has =>
      (tandem.declare id name agree (bond.stays later (either.resolve_right nofun)) has).bind
        fun _ _ _ agree _ => .pure agree trivial
  | .block body, orderly, _, agree, _ =>
    tandem.scope agree fun inner agree opens => stmts body orderly inner agree opens
  | .branch condition thenBranch none, orderly, w, agree, _ => by
    refine (expr condition orderly.1 w agree).bind fun after value _ agree _ => ?_
    split
    · exact stmt thenBranch orderly.2.1 after agree (.inr orderly.2.2)
    · exact .pure agree trivial
  | .branch condition thenBranch (some elseBranch), orderly, w, agree, _ => by
    refine (expr condition orderly.1 w agree).bind fun after value _ agree _ => ?_
    split
    · exact stmt thenBranch orderly.2.1.1 after agree (.inr orderly.2.1.2)
    · exact stmt elseBranch orderly.2.2.1 after agree (.inr orderly.2.2.2)
  | .loop condition body, orderly, w, agree, _ => by
    unfold Steps.stmt
    rw [tandem.rounds]
    refine Concurs.repeatWhile (fun w agree => ?_) (fun after _ agree => ?_) two.rounds agree
    · exact (expr condition orderly.1 w agree).map _
    · exact stmt body orderly.2.1 after agree (.inr orderly.2.2)
  | .function id name decl, orderly, w, agree, either =>
    (tandem.close agree orderly).bind fun _ _ later agree has =>
      (tandem.declare id name agree (bond.stays later (either.resolve_right nofun)) has).bind
        fun _ _ _ agree _ => .pure agree trivial
  | .ret _ none, _, w, agree, _ => .pure agree (show bond.has w .nil from bond.data w trivial)
  | .ret _ (some value), orderly, w, agree, _ =>
    (expr value orderly w agree).bind fun _ _ _ agree has => .pure agree has
  | .class id name thisId fieldDecls methodDecls, orderly, w, agree, either => by
    have made := tandem.makeClass agree (either.resolve_right nofun) orderly.1 orderly.2.2
      fun inner agree => fields fieldDecls [] Table.empty orderly.2.1 inner agree (.empty inner)
    exact made.bind fun _ _ _ agree _ => .pure agree trivial

theorem stmts : ∀ (ss : List Stmt), Orderly.stmts proper ss → ∀ w, bond.agree w → bond.opens w →
    Concurs bond w bond.hasFlow (one.stmts ss w.left) (two.stmts ss w.right)
  | [], _, _, agree, _ => .pure agree trivial
  | s :: rest, orderly, w, agree, opens => by
    refine (stmt s orderly.1 w agree (.inl opens)).bind fun after flow later agree has => ?_
    cases flow with
    | normal => exact stmts rest orderly.2 after agree (bond.stays later opens)
    | returned value => exact .pure agree has

theorem fields : ∀ (decls earlier : List FieldDecl) (values : Table String Value),
    Orderly.fields proper decls → ∀ w, bond.agree w → bond.Fills earlier w values →
      Concurs bond w (bond.Fills (earlier ++ decls)) (one.fields values decls w.left)
        (two.fields values decls w.right)
  | [], earlier, values, _, w, agree, fills => by
    rw [List.append_nil]
    exact .pure agree fills
  | .mk name none :: rest, earlier, values, orderly, w, agree, fills => by
    have nil : bond.has w .nil := bond.data w trivial
    have filled := fills.insert name none nil
    have all := fields rest _ _ orderly w agree filled
    rw [List.append_assoc] at all
    exact all
  | .mk name (some initial) :: rest, earlier, values, orderly, w, agree, fills => by
    refine (expr initial orderly.1 w agree).bind fun after value later agree has => ?_
    have filled := (fills.later later).insert name (some initial) has
    have all := fields rest _ _ orderly.2 after agree filled
    rw [List.append_assoc] at all
    exact all

end
end
end Tandem
end Lox
