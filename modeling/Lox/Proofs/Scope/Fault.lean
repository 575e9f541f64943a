import Lox.Proofs.Grammar.Program
import Lox.Proofs.Outcome
import Lox.Proofs.Scope.Place

set_option autoImplicit false

/-! Which programs are refused. Each fault of a program belongs to a site and is a condition on the path
from the site to the root, without any state that a walk through the program would keep. The main
statement: resolution reports the fault of the first site at fault, and succeeds if there is none. -/

namespace Lox

/-- What is wrong at a site. -/
inductive Offends : Site → ResolutionError → Prop
  /-- The scope has a declaration of the name already. -/
  | declaredTwice {path : Path} {id : NodeId} {name : Token} {b : Binder}
      (sibling : b ∈ path.siblings) (same : b.name = name.lexeme) :
      Offends ⟨path, .declaration id name⟩ ⟨.declaredTwice, name⟩
  /-- The nearest declaration of the name is one whose initializer is around the site. -/
  | ownInitializer {path : Path} {id : NodeId} {name : Token} {b : Binder}
      (nearest : path.nearest? name.lexeme = some b) (underway : b.underway = true) :
      Offends ⟨path, .reference id name⟩ ⟨.ownInitializer, name⟩
  | returnOutsideFunction {path : Path} {keyword : Token} {hasValue : Bool}
      (outside : path.role? = none) :
      Offends ⟨path, .ret keyword hasValue⟩ ⟨.returnOutsideFunction, keyword⟩
  | returnFromInitializer {path : Path} {keyword : Token}
      (inside : path.role? = some .initializer) :
      Offends ⟨path, .ret keyword true⟩ ⟨.returnFromInitializer, keyword⟩
  | thisOutsideClass {path : Path} {id : NodeId} {keyword : Token}
      (outside : path.inClass = false) :
      Offends ⟨path, .this id keyword⟩ ⟨.thisOutsideClass, keyword⟩
  | thisInField {path : Path} {id : NodeId} {keyword : Token}
      (inside : path.inClass = true) (field : path.inField = true) :
      Offends ⟨path, .this id keyword⟩ ⟨.thisInField, keyword⟩
  | memberDeclaredTwice {path : Path} {earlier : List String} {name : Token}
      (repeated : name.lexeme ∈ earlier) :
      Offends ⟨path, .member earlier name⟩ ⟨.memberDeclaredTwice, name⟩

namespace Site

def error? (site : Site) : Option ResolutionError :=
  match site.mention with
  | .declaration _ name =>
    if site.path.siblings.any (·.name == name.lexeme) then some ⟨.declaredTwice, name⟩ else none
  | .receiver _ => none
  | .reference _ name =>
    if (site.path.nearest? name.lexeme).any (·.underway) then some ⟨.ownInitializer, name⟩ else none
  | .this _ keyword =>
    if site.path.inClass = false then some ⟨.thisOutsideClass, keyword⟩
    else if site.path.inField then some ⟨.thisInField, keyword⟩
    else none
  | .ret keyword hasValue =>
    if site.path.role? = none then some ⟨.returnOutsideFunction, keyword⟩
    else if hasValue ∧ site.path.role? = some .initializer then
      some ⟨.returnFromInitializer, keyword⟩
    else none
  | .member earlier name =>
    if name.lexeme ∈ earlier then some ⟨.memberDeclaredTwice, name⟩ else none

theorem offends_of_error? {site : Site} {e : ResolutionError} (found : site.error? = some e) :
    Offends site e := by
  obtain ⟨path, mention⟩ := site
  cases mention with
  | declaration id name =>
      simp only [error?, Option.ite_none_right_eq_some, Option.some.injEq, List.any_eq_true,
        beq_iff_eq] at found
      obtain ⟨⟨b, sibling, same⟩, rfl⟩ := found
      exact .declaredTwice sibling same
  | receiver id => cases found
  | reference id name =>
      simp only [error?, Option.ite_none_right_eq_some, Option.some.injEq, Option.any_eq_true]
        at found
      obtain ⟨⟨b, nearest, underway⟩, rfl⟩ := found
      exact .ownInitializer nearest underway
  | this id keyword =>
      simp only [error?] at found
      split at found
      · next outside =>
          cases found
          exact .thisOutsideClass outside
      · next inside =>
          split at found
          · next field =>
              cases found
              exact .thisInField (by simpa using inside) field
          · cases found
  | ret keyword hasValue =>
      simp only [error?] at found
      split at found
      · next outside =>
          cases found
          exact .returnOutsideFunction outside
      · split at found
        · next both =>
            cases found
            rw [both.1]
            exact .returnFromInitializer both.2
        · cases found
  | member earlier name =>
      simp only [error?, Option.ite_none_right_eq_some, Option.some.injEq] at found
      obtain ⟨repeated, rfl⟩ := found
      exact .memberDeclaredTwice repeated

theorem error?_of_offends {site : Site} {e : ResolutionError} (offends : Offends site e) :
    site.error? = some e := by
  cases offends with
  | declaredTwice sibling same =>
      rename_i path id name b
      have known : path.siblings.any (·.name == name.lexeme) = true :=
        List.any_eq_true.mpr ⟨b, sibling, by simpa using same⟩
      simp only [error?, known, if_true]
  | ownInitializer nearest underway => simp [error?, nearest, underway]
  | returnOutsideFunction outside => simp [error?, outside]
  | returnFromInitializer inside => simp [error?, inside]
  | thisOutsideClass outside => simp [error?, outside]
  | thisInField inside field => simp [error?, inside, field]
  | memberDeclaredTwice repeated => simp [error?, repeated]

theorem error?_eq_some_iff {site : Site} {e : ResolutionError} :
    site.error? = some e ↔ Offends site e :=
  ⟨offends_of_error?, error?_of_offends⟩

theorem error?_eq_none_iff {site : Site} : site.error? = none ↔ ∀ e, ¬ Offends site e := by
  simp only [← error?_eq_some_iff, Option.eq_none_iff_forall_ne_some, ne_eq]

end Site

namespace Sites

/-- The fault of the first site at fault. -/
def firstError (sites : List Site) : Option ResolutionError :=
  sites.findSome? Site.error?

@[simp]
theorem firstError_nil : firstError [] = none := rfl

@[simp]
theorem firstError_cons (site : Site) (rest : List Site) :
    firstError (site :: rest) = site.error?.or (firstError rest) := by
  cases found : site.error? <;> simp [firstError, found]

@[simp]
theorem firstError_append (sites rest : List Site) :
    firstError (sites ++ rest) = (firstError sites).or (firstError rest) :=
  List.findSome?_append

theorem firstError_eq_none_iff {sites : List Site} :
    firstError sites = none ↔ ∀ site ∈ sites, ∀ e, ¬ Offends site e := by
  simp only [firstError, List.findSome?_eq_none_iff, Site.error?_eq_none_iff]

theorem firstError_eq_some_iff {sites : List Site} {e : ResolutionError} :
    firstError sites = some e ↔ ∃ before site after, sites = before ++ site :: after ∧
      (∀ earlier ∈ before, ∀ e, ¬ Offends earlier e) ∧ Offends site e := by
  rw [firstError, List.findSome?_eq_some_iff]
  simp only [Site.error?_eq_some_iff, Site.error?_eq_none_iff]
  constructor
  · rintro ⟨before, site, after, rfl, offends, clean⟩
    exact ⟨before, site, after, rfl, clean, offends⟩
  · rintro ⟨before, site, after, rfl, clean, offends⟩
    exact ⟨before, site, after, rfl, offends, clean⟩

end Sites

/-- A part of resolution reports the first fault of its sites, or yields something as it should be. -/
def Verdict {α : Type} (result : EStateM.Result ResolutionError Bindings α) (sites : List Site)
    (good : α → Prop) : Prop :=
  match result with
  | .ok a _ => Sites.firstError sites = none ∧ good a
  | .error e _ => Sites.firstError sites = some e

namespace Verdict

variable {α β : Type} {bindings : Bindings} {sites rest : List Site} {good : α → Prop}

theorem pure {a : α} (isGood : good a) : Verdict ((return a : Resolve α) bindings) [] good :=
  ⟨rfl, isGood⟩

theorem bind {next : β → Prop} {first : Resolve α} {second : α → Resolve β}
    (one : Verdict (first bindings) sites good)
    (two : ∀ a after, good a → Verdict (second a after) rest next) :
    Verdict ((first >>= second) bindings) (sites ++ rest) next := by
  cases result : first bindings with
  | ok a after =>
      rw [Outcome.bind_of_ok result]
      rw [result] at one
      have later := two a after one.2
      cases outcome : second a after with
      | ok b last =>
          rw [outcome] at later
          exact ⟨by rw [Sites.firstError_append, one.1, later.1]; rfl, later.2⟩
      | error e last =>
          rw [outcome] at later
          have found : Sites.firstError rest = some e := later
          change Sites.firstError _ = _
          rw [Sites.firstError_append, one.1, found]
          rfl
  | error e after =>
      rw [Outcome.bind_of_error result]
      rw [result] at one
      have found : Sites.firstError sites = some e := one
      change Sites.firstError _ = _
      rw [Sites.firstError_append, found]
      rfl

theorem imp {result : EStateM.Result ResolutionError Bindings α} {better : α → Prop}
    (verdict : Verdict result sites good) (improves : ∀ a, good a → better a) :
    Verdict result sites better := by
  cases result with
  | ok a after => exact ⟨verdict.1, improves a verdict.2⟩
  | error e after => exact verdict

theorem map {next : β → Prop} {first : Resolve α} (g : α → β)
    (one : Verdict (first bindings) sites good) (improves : ∀ a, good a → next (g a)) :
    Verdict ((do let a ← first; return g a : Resolve β) bindings) sites next := by
  rw [← List.append_nil sites]
  exact one.bind fun a after isGood => Verdict.pure (improves a isGood)

theorem of_firstError_eq {result : EStateM.Result ResolutionError Bindings α}
    (verdict : Verdict result sites good) (same : Sites.firstError rest = Sites.firstError sites) :
    Verdict result rest good := by
  cases result with
  | ok a after => exact ⟨same.trans verdict.1, verdict.2⟩
  | error e after => exact same.trans verdict

theorem skip {result : EStateM.Result ResolutionError Bindings α}
    (clean : Sites.firstError sites = none) (verdict : Verdict result rest good) :
    Verdict result (sites ++ rest) good :=
  verdict.of_firstError_eq (by rw [Sites.firstError_append, clean]; rfl)

end Verdict

/-- Nothing is known about slots, since what is refused does not depend on them. -/
def AnySlot (_ : NodeId) (_ : Slot) : Prop := True

/-- No variable around a place is called like the receiver. -/
def Path.Plain (path : Path) : Prop :=
  ∀ b ∈ path.binders, b.name = thisName → b.underway = false

theorem Stmt.not_underway : ∀ (s : Stmt) (b : Binder), b ∈ s.declared → b.underway = false
  | .var _ _ _, b, member | .function _ _ _, b, member | .class _ _ _ _ _, b, member => by
      rw [List.mem_singleton.mp member]
  | .branch _ thenBranch none, b, member => thenBranch.not_underway b member
  | .branch _ thenBranch (some elseBranch), b, member => by
      rcases List.mem_append.mp member with inElse | inThen
      · exact elseBranch.not_underway b inElse
      · exact thenBranch.not_underway b inThen
  | .loop _ body, b, member => body.not_underway b member
  | .expression _, b, member | .print _, b, member | .block _, b, member
  | .ret _ _, b, member => by cases member

namespace Path

variable {path : Path}

theorem plain_nil : Plain [] := by
  intro b member
  cases member

theorem Plain.cons (plain : path.Plain) (step : Step)
    (ownPlain : ∀ b ∈ step.binders path.isLocal, b.name = thisName → b.underway = false) :
    Plain (step :: path) := by
  intro b member
  rcases List.mem_append.mp member with own | others
  · exact ownPlain b own
  · exact plain b others

theorem Plain.block (plain : path.Plain) : Plain (.block [] :: path) :=
  plain.cons _ (by intro b member; cases member)

theorem Plain.initializer (plain : path.Plain) (id : NodeId) {name : Token}
    (other : name.lexeme ≠ thisName) : Plain (.initializer id name :: path) := by
  refine plain.cons _ fun b member same => absurd same ?_
  rw [Step.binders, List.mem_ite_nil_right, List.mem_singleton] at member
  rw [member.2]
  exact other

theorem Plain.own (plain : path.Plain) (id : NodeId) (name : Token) :
    Plain (.own id name :: path) := by
  refine plain.cons _ fun b member _ => ?_
  rw [Step.binders, List.mem_ite_nil_right, List.mem_singleton] at member
  rw [member.2]

theorem Plain.members (plain : path.Plain) (thisId : NodeId) : Plain (.members thisId :: path) :=
  plain.cons _ fun b member _ => by rw [List.mem_singleton.mp member]

theorem Plain.field (plain : path.Plain) : Plain (.field :: path) :=
  plain.cons _ (by intro b member; cases member)

theorem Plain.function (plain : path.Plain) (role : FunctionKind) (params : List Param) :
    Plain (.function role params [] :: path) := by
  refine plain.cons _ fun b member _ => ?_
  obtain ⟨param, _, rfl⟩ := List.mem_map.mp member
  rfl

theorem Plain.past (plain : path.Plain) (s : Stmt) : (path.past s).Plain := by
  intro b member same
  rcases mem_binders_past member with own | others
  · exact s.not_underway b own
  · exact plain b others same

end Path

namespace Resolve

variable {place : Place} {path : Path}

theorem fail_verdict {α : Type} {good : α → Prop} {site : Site} {fault : ResolutionFault}
    {token : Token} {rest : List Site} (bindings : Bindings)
    (offends : Offends site ⟨fault, token⟩) :
    Verdict ((fail fault token : Resolve α) bindings) (site :: rest) good := by
  change Sites.firstError (site :: rest) = _
  rw [Sites.firstError_cons, Site.error?_of_offends offends]
  rfl

theorem reference_verdict (bindings : Bindings) (shown : place.Shows AnySlot path) (id : NodeId)
    (name : Token) :
    Verdict (reference place id name bindings) [⟨path, .reference id name⟩] (fun _ => True) := by
  have same := shown.find? name.lexeme
  unfold reference
  cases entry : place.find? name.lexeme with
  | none =>
      rw [entry] at same
      cases nearest : path.nearest? name.lexeme with
      | none => exact ⟨by simp [Site.error?, nearest], trivial⟩
      | some b =>
          rw [nearest] at same
          cases same
  | some declared =>
      rw [entry] at same
      cases nearest : path.nearest? name.lexeme with
      | none =>
          rw [nearest] at same
          cases same
      | some b =>
          rw [nearest] at same
          cases same with
          | some agree =>
              obtain ⟨_, slot, ready⟩ := declared
              have readyEq : ready = !b.underway := agree.ready
              cases underway : b.underway with
              | false =>
                  rw [underway] at readyEq
                  subst readyEq
                  exact ⟨by simp [Site.error?, nearest, underway], trivial⟩
              | true =>
                  rw [underway] at readyEq
                  subst readyEq
                  exact fail_verdict bindings (.ownInitializer nearest underway)

theorem declare_verdict (bindings : Bindings) (stands : place.Stands AnySlot path) (ready : Bool)
    (id : NodeId) (name : Token) :
    Verdict (declare place ready id name bindings) [⟨path, .declaration id name⟩]
      (fun next => ∃ slot, next = place.add ⟨name.lexeme, slot, ready⟩ ∧
        ∀ scope outer, place.scopes = scope :: outer → ∀ d ∈ scope, d.name ≠ name.lexeme) := by
  unfold declare
  cases stands with
  | outside role inClass inField scopes =>
      rw [scopes]
      refine ⟨by simp [Site.error?, Path.siblings], 0, ?_, ?_⟩
      · simp only [Place.add, scopes]
      · intro scope outer impossible
        cases impossible
  | @inside step outer scope around opens role inClass inField scopes own others =>
      rw [scopes]
      have sameNames := Place.any_shows own name.lexeme
      have siblings : Path.siblings (step :: outer) = step.binders true := if_pos opens
      cases taken : scope.any (·.name == name.lexeme) with
      | true =>
          simp only [taken, if_true]
          rw [taken] at sameNames
          obtain ⟨b, member, same⟩ := List.any_eq_true.mp sameNames.symm
          exact fail_verdict bindings (.declaredTwice (siblings ▸ member) (by simpa using same))
      | false =>
          simp only [taken, Bool.false_eq_true, if_false]
          rw [taken] at sameNames
          refine ⟨?_, bindings.nextSlot, ?_, ?_⟩
          · simp [Site.error?, siblings, sameNames.symm]
          · simp only [Place.add, scopes]
          · intro _ _ same d member equal
            cases same
            have free := List.any_eq_false.mp taken d member
            simp [equal] at free

theorem declareParams_verdict {role : FunctionKind} :
    ∀ (parameters : List Param) (place : Place) (earlier : List Param) (bindings : Bindings),
      place.Stands AnySlot (.function role earlier [] :: path) →
      Verdict (declareParams place parameters bindings) (Sites.params role path earlier parameters)
        (fun next => next.Stands AnySlot
          (.function role (parameters.reverse ++ earlier) [] :: path))
  | [], place, earlier, bindings, stands => by
      exact Verdict.pure stands
  | param :: rest, place, earlier, bindings, stands => by
      rw [declareParams, Sites.params, ← List.singleton_append]
      apply (declare_verdict bindings stands true param.id param.name).bind
      rintro next after ⟨slot, rfl, _⟩
      have grown := stands.follow param.id slot param.name (fun _ => trivial) rfl
        (Place.follows_param role param earlier)
      refine (declareParams_verdict rest _ (param :: earlier) after grown).imp fun last good => ?_
      rwa [List.reverse_cons, List.append_assoc, List.singleton_append]

theorem allocate_verdict (bindings : Bindings) (path : Path) (id : NodeId) :
    Verdict (allocate id bindings) [⟨path, .receiver id⟩] (fun _ => True) :=
  ⟨rfl, trivial⟩

theorem members_verdict (path : Path) : ∀ (earlier : List String) (names : List Token),
    Sites.firstError (Sites.members path earlier names) =
      (repeatedMember? earlier names).map fun name => ⟨.memberDeclaredTwice, name⟩
  | earlier, [] => rfl
  | earlier, name :: rest => by
      rw [Sites.members, Sites.firstError_cons, repeatedMember?]
      by_cases repeated : name.lexeme ∈ earlier
      · simp [Site.error?, repeated]
      · simpa [Site.error?, repeated] using members_verdict path (name.lexeme :: earlier) rest

mutual

theorem expr_verdict : ∀ (e : Expr) (place : Place) (path : Path) (bindings : Bindings),
    place.Shows AnySlot path → path.Plain → Regular.expr e →
    Verdict (expr place e bindings) (Sites.expr path e) (fun _ => True)
  | .literal _, _, _, _, _, _, _ => Verdict.pure trivial
  | .unary _ right, place, path, bindings, shown, plain, regular =>
      expr_verdict right place path bindings shown plain regular
  | .binary left _ right, place, path, bindings, shown, plain, regular =>
      (expr_verdict left place path bindings shown plain regular.1).bind fun _ after _ =>
        expr_verdict right place path after shown plain regular.2
  | .logical left _ right, place, path, bindings, shown, plain, regular =>
      (expr_verdict left place path bindings shown plain regular.1).bind fun _ after _ =>
        expr_verdict right place path after shown plain regular.2
  | .ternary condition thenBranch elseBranch, place, path, bindings, shown, plain, regular => by
      rw [Sites.expr, List.append_assoc]
      exact (expr_verdict condition place path bindings shown plain regular.1).bind fun _ after _ =>
        (expr_verdict thenBranch place path after shown plain regular.2.1).bind fun _ last _ =>
          expr_verdict elseBranch place path last shown plain regular.2.2
  | .grouping inner, place, path, bindings, shown, plain, regular =>
      expr_verdict inner place path bindings shown plain regular
  | .variable id name, _, _, bindings, shown, _, _ => reference_verdict bindings shown id name
  | .assign id name value, place, path, bindings, shown, plain, regular =>
      (expr_verdict value place path bindings shown plain regular.2).bind fun _ after _ =>
        reference_verdict after shown id name
  | .call callee _ arguments, place, path, bindings, shown, plain, regular =>
      (expr_verdict callee place path bindings shown plain regular.1).bind fun _ after _ =>
        exprs_verdict arguments place path after shown plain regular.2
  | .function decl, place, path, bindings, shown, plain, regular =>
      function_verdict decl .function place path bindings shown plain regular
  | .get object _, place, path, bindings, shown, plain, regular =>
      expr_verdict object place path bindings shown plain regular
  | .set object _ value, place, path, bindings, shown, plain, regular =>
      (expr_verdict value place path bindings shown plain regular.2).bind fun _ after _ =>
        expr_verdict object place path after shown plain regular.1
  | .this id keyword, place, path, bindings, shown, plain, regular => by
      rw [expr, Sites.expr, shown.inClass, shown.inField]
      cases inClass : path.inClass with
      | false => exact fail_verdict bindings (.thisOutsideClass inClass)
      | true =>
          cases inField : path.inField with
          | true => exact fail_verdict bindings (.thisInField inClass inField)
          | false =>
              apply (reference_verdict bindings shown id keyword).of_firstError_eq
              have clean : (path.nearest? keyword.lexeme).any (·.underway) = false := by
                cases nearest : path.nearest? keyword.lexeme with
                | none => rfl
                | some b =>
                    have named : b.name = keyword.lexeme := by
                      simpa using List.find?_some nearest
                    exact plain b (List.mem_of_find?_eq_some nearest) (named.trans regular)
              simp [Site.error?, inClass, inField, clean]

theorem exprs_verdict : ∀ (es : List Expr) (place : Place) (path : Path) (bindings : Bindings),
    place.Shows AnySlot path → path.Plain → Regular.exprs es →
    Verdict (exprs place es bindings) (Sites.exprs path es) (fun _ => True)
  | [], _, _, _, _, _, _ => Verdict.pure trivial
  | e :: rest, place, path, bindings, shown, plain, regular =>
      (expr_verdict e place path bindings shown plain regular.1).bind fun _ after _ =>
        exprs_verdict rest place path after shown plain regular.2

theorem stmt_verdict : ∀ (s : Stmt) (place : Place) (path : Path) (bindings : Bindings),
    place.Stands AnySlot path → path.Plain → Regular.stmt s →
    Verdict (stmt place s bindings) (Sites.stmt path s)
      (fun next => next.Stands AnySlot (path.past s))
  | .expression value, place, path, bindings, stands, plain, regular =>
      (expr_verdict value place path bindings stands.shows plain regular).map _ fun _ _ =>
        stands.past_nil rfl
  | .print value, place, path, bindings, stands, plain, regular =>
      (expr_verdict value place path bindings stands.shows plain regular).map _ fun _ _ =>
        stands.past_nil rfl
  | .var id name none, place, path, bindings, stands, plain, regular => by
      rw [stmt, Sites.stmt]
      apply (declare_verdict bindings stands false id name).map _
      rintro next ⟨slot, rfl, fresh⟩
      rw [place.markReady_add name.lexeme slot fresh]
      exact stands.past id slot name (fun _ => trivial) rfl
  | .var id name (some initial), place, path, bindings, stands, plain, regular => by
      rw [stmt, Sites.stmt, ← List.singleton_append]
      apply (declare_verdict bindings stands false id name).bind
      rintro inside after ⟨slot, rfl, fresh⟩
      refine (expr_verdict initial _ (.initializer id name :: path) after
        (stands.initializer id slot name fun _ => trivial) (plain.initializer id regular.1)
        regular.2).map _ fun _ _ => ?_
      rw [place.markReady_add name.lexeme slot fresh]
      exact stands.past id slot name (fun _ => trivial) rfl
  | .block body, place, path, bindings, stands, plain, regular =>
      (stmts_verdict body _ (.block [] :: path) bindings stands.shows.block plain.block
        regular).map _ fun _ _ => stands.past_nil rfl
  | .branch condition thenBranch none, place, path, bindings, stands, plain, regular => by
      rw [stmt, Sites.stmt]
      apply (expr_verdict condition place path bindings stands.shows plain regular.1).bind
      intro _ after _
      apply (stmt_verdict thenBranch place path after stands plain regular.2.1).map _
      intro next good
      exact good.of_declared rfl
  | .branch condition thenBranch (some elseBranch), place, path, bindings, stands, plain,
      regular => by
      rw [stmt, Sites.stmt, List.append_assoc]
      apply (expr_verdict condition place path bindings stands.shows plain regular.1).bind
      intro _ after _
      apply (stmt_verdict thenBranch place path after stands plain regular.2.1.1).bind
      intro next last good
      refine (stmt_verdict elseBranch next (path.past thenBranch) last good (plain.past thenBranch)
        regular.2.2.1).imp fun final better => ?_
      exact better.past_past rfl
  | .loop condition body, place, path, bindings, stands, plain, regular =>
      (expr_verdict condition place path bindings stands.shows plain regular.1).bind
        fun _ after _ => (stmt_verdict body place path after stands plain regular.2.1).imp
          fun _ good => good.of_declared rfl
  | .function id name decl, place, path, bindings, stands, plain, regular => by
      rw [stmt, Sites.stmt, ← List.singleton_append]
      apply (declare_verdict bindings stands true id name).bind
      rintro next after ⟨slot, rfl, _⟩
      exact (function_verdict decl .function _ (.own id name :: path) after
        (stands.own id slot name fun _ => trivial) (plain.own id name) regular.2).map _
          fun _ _ => stands.past id slot name (fun _ => trivial) rfl
  | .ret keyword none, ⟨scopes, role, inClass, inField⟩, path, bindings, stands, plain, regular => by
      have roleEq : role = path.role? := stands.shows.role
      cases found : path.role? with
      | none =>
          rw [found] at roleEq
          subst roleEq
          exact fail_verdict bindings (.returnOutsideFunction found)
      | some kind =>
          rw [found] at roleEq
          subst roleEq
          exact ⟨by simp [Sites.stmt, Site.error?, found], stands.past_nil rfl⟩
  | .ret keyword (some value), ⟨scopes, role, inClass, inField⟩, path, bindings, stands, plain,
      regular => by
      have roleEq : role = path.role? := stands.shows.role
      cases found : path.role? with
      | none =>
          rw [found] at roleEq
          subst roleEq
          exact fail_verdict bindings (.returnOutsideFunction found)
      | some kind =>
          rw [found] at roleEq
          subst roleEq
          rw [Sites.stmt, ← List.singleton_append]
          have walked := expr_verdict value _ path bindings stands.shows plain regular
          cases kind with
          | initializer => exact fail_verdict bindings (.returnFromInitializer found)
          | function =>
              apply Verdict.skip (by simp [Site.error?, found])
              exact walked.map _ fun _ _ => stands.past_nil rfl
          | method =>
              apply Verdict.skip (by simp [Site.error?, found])
              exact walked.map _ fun _ _ => stands.past_nil rfl
  | .class id name thisId fieldDecls methodDecls, place, path, bindings, stands, plain,
      regular => by
      rw [stmt, Sites.stmt, ← List.singleton_append]
      apply (declare_verdict bindings stands true id name).bind
      rintro next after ⟨slot, rfl, _⟩
      have inOwn := stands.own id slot name fun _ => trivial
      have names := members_verdict (.own id name :: path) [] (memberNames fieldDecls methodDecls)
      cases repeated : repeatedMember? [] (memberNames fieldDecls methodDecls) with
      | some member =>
          change Sites.firstError _ = _
          rw [Sites.firstError_append, names, repeated]
          rfl
      | none =>
          rw [repeated] at names
          apply Verdict.skip names
          rw [← List.singleton_append]
          refine (allocate_verdict after _ thisId).bind fun thisSlot last _ => ?_
          have inside := inOwn.members thisId thisSlot trivial
          have plainInside := (plain.own id name).members thisId
          refine (fields_verdict fieldDecls _ _ last inside.field plainInside.field
            regular.2.1).bind fun _ final _ => ?_
          exact (methods_verdict methodDecls _ _ final inside plainInside regular.2.2).map _
            fun _ _ => stands.past id slot name (fun _ => trivial) rfl

theorem stmts_verdict : ∀ (ss : List Stmt) (place : Place) (path : Path) (bindings : Bindings),
    place.Stands AnySlot path → path.Plain → Regular.stmts ss →
    Verdict (stmts place ss bindings) (Sites.stmts path ss) (fun _ => True)
  | [], _, _, _, _, _, _ => Verdict.pure trivial
  | s :: rest, place, path, bindings, stands, plain, regular =>
      (stmt_verdict s place path bindings stands plain regular.1).bind fun next after good =>
        stmts_verdict rest next (path.past s) after good (plain.past s) regular.2

theorem function_verdict : ∀ (decl : FunctionDecl) (role : FunctionKind) (place : Place)
    (path : Path) (bindings : Bindings),
    place.Shows AnySlot path → path.Plain → Regular.function decl →
    Verdict (function { place with role := some role } decl bindings)
      (Sites.function role path decl) (fun _ => True)
  | .mk _ _ parameters body, role, place, path, bindings, shown, plain, regular => by
      rw [function, Sites.function]
      refine (declareParams_verdict parameters _ [] bindings (shown.function role)).bind
        fun inside after stands => ?_
      rw [List.append_nil] at stands
      exact (stmts_verdict body inside (.function role parameters.reverse [] :: path) after stands
        (plain.function role parameters.reverse) regular.2).map _ fun _ _ => trivial

theorem methods_verdict : ∀ (decls : List FunctionDecl) (place : Place) (path : Path)
    (bindings : Bindings),
    place.Shows AnySlot path → path.Plain → Regular.functions decls →
    Verdict (methods place decls bindings) (Sites.methods path decls) (fun _ => True)
  | [], _, _, _, _, _, _ => Verdict.pure trivial
  | method :: rest, place, path, bindings, shown, plain, regular =>
      (function_verdict method (methodRole method.kind) place path bindings shown plain
        regular.1).bind fun _ after _ =>
          methods_verdict rest place path after shown plain regular.2

theorem fields_verdict : ∀ (decls : List FieldDecl) (place : Place) (path : Path)
    (bindings : Bindings),
    place.Shows AnySlot path → path.Plain → Regular.fields decls →
    Verdict (fields place decls bindings) (Sites.fields path decls) (fun _ => True)
  | [], _, _, _, _, _, _ => Verdict.pure trivial
  | .mk _ none :: rest, place, path, bindings, shown, plain, regular =>
      fields_verdict rest place path bindings shown plain regular
  | .mk _ (some value) :: rest, place, path, bindings, shown, plain, regular =>
      (expr_verdict value place path bindings shown plain regular.1).bind fun _ after _ =>
        fields_verdict rest place path after shown plain regular.2

end
end Resolve

/-- Resolution of a regular program yields the fault of its first site at fault. -/
theorem resolve_error (bindings : Bindings) {program : List Stmt}
    (regular : Regular.stmts program) :
    (resolve bindings program).1 = Sites.firstError (Sites.program program) := by
  have verdict := Resolve.stmts_verdict program Place.top [] bindings Place.stands_top
    Path.plain_nil regular
  unfold resolve
  cases result : Resolve.stmts Place.top program bindings with
  | ok place after =>
      rw [result] at verdict
      exact verdict.1.symm
  | error e after =>
      rw [result] at verdict
      exact Eq.symm verdict

/-- A program that has been read is refused if and only if one of its sites is at fault, and then for
the fault of the first such site. -/
theorem resolve_refuses_iff_offends (base : Nat) (text : List Char) (firstId : NodeId)
    (bindings : Bindings) :
    let program := (Grammar.readText base text firstId).statements
    ((resolve bindings program).1.isSome = true ↔
        ∃ site ∈ Sites.program program, ∃ e, Offends site e) ∧
      ∀ e, (resolve bindings program).1 = some e ↔
        ∃ before site after, Sites.program program = before ++ site :: after ∧
          (∀ earlier ∈ before, ∀ e, ¬ Offends earlier e) ∧ Offends site e := by
  intro program
  have regular := (Grammar.readText_fit base text firstId).regular
  have first := resolve_error bindings regular
  constructor
  · rw [first]
    constructor
    · intro refused
      obtain ⟨e, found⟩ := Option.isSome_iff_exists.mp refused
      obtain ⟨before, site, after, split, -, offends⟩ := Sites.firstError_eq_some_iff.mp found
      refine ⟨site, ?_, e, offends⟩
      rw [split]
      exact List.mem_append_right before List.mem_cons_self
    · rintro ⟨site, member, e, offends⟩
      by_contra accepted
      have none := Option.not_isSome_iff_eq_none.mp accepted
      exact Sites.firstError_eq_none_iff.mp none site member e offends
  · intro e
    rw [first]
    exact Sites.firstError_eq_some_iff

end Lox
