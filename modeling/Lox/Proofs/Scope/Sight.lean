import Lox.Proofs.Scope.Binding

set_option autoImplicit false

/-! What is in sight of a site. Every declaration that a path leads past has a site of its own in the same
program; so a node that refers to a name has a slot only if the declaration that it means has it, and the
slots of a program that has been resolved are those that its declarations got. -/

namespace Lox

/-- The node that gets a slot here if it is local. -/
def Mention.declared? : Mention → Option NodeId
  | .declaration id _ => some id
  | .receiver id => some id
  | _ => none

/-- What is declared here, with its name. -/
def Mention.binding? : Mention → Option (NodeId × String)
  | .declaration id name => some (id, name.lexeme)
  | .receiver id => some (id, "this")
  | _ => none

theorem Mention.declared?_of_binding? {mention : Mention} {id : NodeId} {name : String}
    (binds : mention.binding? = some (id, name)) : mention.declared? = some id := by
  cases mention <;> cases binds <;> rfl

/-- The node that shares the slot of a declaration here. -/
def Mention.referring? : Mention → Option NodeId
  | .reference id _ => some id
  | .this id _ => some id
  | _ => none

theorem Mention.mem_nodes {mention : Mention} {id : NodeId} :
    id ∈ mention.nodes ↔ mention.declared? = some id ∨ mention.referring? = some id := by
  cases mention <;> simp [nodes, declared?, referring?, eq_comm]

def Sites.Declares (sites : List Site) (id : NodeId) : Prop :=
  ∃ site ∈ sites, site.mention.declared? = some id

theorem Sites.Declares.mem_nodes {sites : List Site} {id : NodeId} (declares : Declares sites id) :
    id ∈ nodes sites := by
  obtain ⟨site, member, own⟩ := declares
  exact List.mem_flatMap.mpr ⟨site, member, Mention.mem_nodes.mpr (.inl own)⟩

/-- A program declares a node under a name. -/
def Sites.Binds (sites : List Site) (id : NodeId) (name : String) : Prop :=
  ∃ site ∈ sites, site.mention.binding? = some (id, name)

theorem Sites.Binds.declares {sites : List Site} {id : NodeId} {name : String}
    (binds : Binds sites id name) : Declares sites id := by
  obtain ⟨site, member, own⟩ := binds
  exact ⟨site, member, Mention.declared?_of_binding? own⟩

section

variable (seen : NodeId → String → Prop)

/-- What is declared here has some property. -/
def Mention.Tells (mention : Mention) : Prop :=
  ∀ id name, mention.binding? = some (id, name) → seen id name

/-- Everything in sight has some property. -/
def Path.Shows (path : Path) : Prop :=
  ∀ b ∈ path.binders, seen b.id b.name

def Sites.Sighted (sites : List Site) : Prop :=
  ∀ site ∈ sites, site.path.Shows seen

end

variable {seen : NodeId → String → Prop} {path : Path}

namespace Path

theorem shows_nil : Shows seen [] :=
  nofun

/-- What is in sight after one more step. -/
theorem Shows.cons {step : Step} (outer : path.Shows seen)
    (own : ∀ b ∈ step.binders path.isLocal, seen b.id b.name) : Shows seen (step :: path) :=
  List.forall_mem_append.mpr ⟨own, outer⟩

theorem Shows.bare {step : Step} (outer : path.Shows seen) (bare : step.binders path.isLocal = []) :
    Shows seen (step :: path) := by
  refine outer.cons fun b member => ?_
  rw [bare] at member
  cases member

theorem Shows.past {s : Stmt} (outer : path.Shows seen) (own : ∀ b ∈ s.declared, seen b.id b.name) :
    (path.past s).Shows seen :=
  fun b member => (mem_binders_past member).elim (own b) (outer b)

theorem Shows.initializer (outer : path.Shows seen) {id : NodeId} {name : Token}
    (own : seen id name.lexeme) : Shows seen (.initializer id name :: path) := by
  refine outer.cons fun b member => ?_
  rw [Step.binders, List.mem_ite_nil_right, List.mem_singleton] at member
  rw [member.2]
  exact own

theorem Shows.own (outer : path.Shows seen) {id : NodeId} {name : Token} (own : seen id name.lexeme) :
    Shows seen (.own id name :: path) := by
  refine outer.cons fun b member => ?_
  rw [Step.binders, List.mem_ite_nil_right, List.mem_singleton] at member
  rw [member.2]
  exact own

theorem mem_of_declaration? {name : String} {id : NodeId} (found : path.declaration? name = some id) :
    ∃ b ∈ path.binders, b.id = id ∧ b.name = name := by
  obtain ⟨b, first, rfl⟩ := Option.map_eq_some_iff.mp found
  have named := List.find?_some first
  exact ⟨b, List.mem_of_mem_filter (List.mem_of_find?_eq_some first), rfl, beq_iff_eq.mp named⟩

end Path

namespace Sites

theorem Sighted.nil : Sighted seen [] :=
  nofun

theorem Sighted.cons {site : Site} {rest : List Site} (head : site.path.Shows seen)
    (tail : Sighted seen rest) : Sighted seen (site :: rest) :=
  List.forall_mem_cons.mpr ⟨head, tail⟩

theorem Sighted.append {sites rest : List Site} (one : Sighted seen sites)
    (two : Sighted seen rest) : Sighted seen (sites ++ rest) :=
  List.forall_mem_append.mpr ⟨one, two⟩

/-- What a statement adds to its scope is declared at its sites. -/
theorem tells_declared : ∀ (s : Stmt) (path : Path), (∀ site ∈ stmt path s, site.mention.Tells seen) →
    ∀ b ∈ s.declared, seen b.id b.name
  | .var id name none, path, all, b, member => by
    cases List.mem_singleton.mp member
    exact all _ List.mem_cons_self _ _ rfl
  | .var id name (some initial), path, all, b, member => by
    cases List.mem_singleton.mp member
    exact all _ List.mem_cons_self _ _ rfl
  | .function id name decl, path, all, b, member => by
    cases List.mem_singleton.mp member
    exact all _ List.mem_cons_self _ _ rfl
  | .class id name thisId fieldDecls methodDecls, path, all, b, member => by
    cases List.mem_singleton.mp member
    exact all _ List.mem_cons_self _ _ rfl
  | .branch condition thenBranch none, path, all, b, member =>
    tells_declared thenBranch path (List.forall_mem_append.mp all).2 b member
  | .branch condition thenBranch (some elseBranch), path, all, b, member => by
    have parts := List.forall_mem_append.mp all
    rcases List.mem_append.mp member with other | chosen
    · exact tells_declared elseBranch (path.past thenBranch) parts.2 b other
    · exact tells_declared thenBranch path (List.forall_mem_append.mp parts.1).2 b chosen
  | .loop condition body, path, all, b, member =>
    tells_declared body path (List.forall_mem_append.mp all).2 b member

theorem params_sighted {role : FunctionKind} : ∀ (parameters earlier : List Param),
    Path.Shows seen (.function role earlier [] :: path) →
      (∀ site ∈ params role path earlier parameters, site.mention.Tells seen) →
        Sighted seen (params role path earlier parameters) ∧
          Path.Shows seen (.function role (parameters.reverse ++ earlier) [] :: path)
  | [], _, outer, _ => ⟨.nil, outer⟩
  | param :: rest, earlier, outer, all => by
    obtain ⟨own, others⟩ := List.forall_mem_cons.mp all
    have more : Path.Shows seen (.function role (param :: earlier) [] :: path) :=
      List.forall_mem_cons.mpr ⟨own _ _ rfl, outer⟩
    obtain ⟨sighted, inside⟩ := params_sighted rest (param :: earlier) more others
    rw [List.reverse_cons, List.append_assoc, List.singleton_append]
    exact ⟨.cons outer sighted, inside⟩

theorem members_sighted (outer : path.Shows seen) : ∀ (earlier : List String) (names : List Token),
    Sighted seen (members path earlier names)
  | _, [] => .nil
  | _, _ :: rest => .cons outer (members_sighted outer _ rest)

mutual

theorem expr_sighted : ∀ (e : Expr) (path : Path), path.Shows seen →
    (∀ site ∈ expr path e, site.mention.Tells seen) → Sighted seen (expr path e)
  | .literal _, _, _, _ => .nil
  | .unary _ right, path, outer, all => expr_sighted right path outer all
  | .binary left _ right, path, outer, all =>
    have parts := List.forall_mem_append.mp all
    (expr_sighted left path outer parts.1).append (expr_sighted right path outer parts.2)
  | .logical left _ right, path, outer, all =>
    have parts := List.forall_mem_append.mp all
    (expr_sighted left path outer parts.1).append (expr_sighted right path outer parts.2)
  | .ternary condition thenBranch elseBranch, path, outer, all =>
    have parts := List.forall_mem_append.mp all
    have first := List.forall_mem_append.mp parts.1
    ((expr_sighted condition path outer first.1).append
      (expr_sighted thenBranch path outer first.2)).append
        (expr_sighted elseBranch path outer parts.2)
  | .grouping inner, path, outer, all => expr_sighted inner path outer all
  | .variable _ _, _, outer, _ => .cons outer .nil
  | .assign _ _ value, path, outer, all =>
    (expr_sighted value path outer (List.forall_mem_append.mp all).1).append (.cons outer .nil)
  | .call callee _ arguments, path, outer, all =>
    have parts := List.forall_mem_append.mp all
    (expr_sighted callee path outer parts.1).append (exprs_sighted arguments path outer parts.2)
  | .function decl, path, outer, all => function_sighted decl .function path outer all
  | .get object _, path, outer, all => expr_sighted object path outer all
  | .set object _ value, path, outer, all =>
    have parts := List.forall_mem_append.mp all
    (expr_sighted value path outer parts.1).append (expr_sighted object path outer parts.2)
  | .this _ _, _, outer, _ => .cons outer .nil

theorem exprs_sighted : ∀ (es : List Expr) (path : Path), path.Shows seen →
    (∀ site ∈ exprs path es, site.mention.Tells seen) → Sighted seen (exprs path es)
  | [], _, _, _ => .nil
  | e :: rest, path, outer, all =>
    have parts := List.forall_mem_append.mp all
    (expr_sighted e path outer parts.1).append (exprs_sighted rest path outer parts.2)

theorem stmt_sighted : ∀ (s : Stmt) (path : Path), path.Shows seen →
    (∀ site ∈ stmt path s, site.mention.Tells seen) → Sighted seen (stmt path s)
  | .expression value, path, outer, all => expr_sighted value path outer all
  | .print value, path, outer, all => expr_sighted value path outer all
  | .var _ _ none, _, outer, _ => .cons outer .nil
  | .var id name (some initial), path, outer, all =>
    have parts := List.forall_mem_cons.mp all
    .cons outer (expr_sighted initial _ (outer.initializer (parts.1 _ _ rfl)) parts.2)
  | .block body, path, outer, all => stmts_sighted body _ (outer.bare rfl) all
  | .branch condition thenBranch none, path, outer, all =>
    have parts := List.forall_mem_append.mp all
    (expr_sighted condition path outer parts.1).append (stmt_sighted thenBranch path outer parts.2)
  | .branch condition thenBranch (some elseBranch), path, outer, all =>
    have parts := List.forall_mem_append.mp all
    have first := List.forall_mem_append.mp parts.1
    ((expr_sighted condition path outer first.1).append
      (stmt_sighted thenBranch path outer first.2)).append
        (stmt_sighted elseBranch _ (outer.past (tells_declared thenBranch path first.2)) parts.2)
  | .loop condition body, path, outer, all =>
    have parts := List.forall_mem_append.mp all
    (expr_sighted condition path outer parts.1).append (stmt_sighted body path outer parts.2)
  | .function id name decl, path, outer, all =>
    have parts := List.forall_mem_cons.mp all
    .cons outer (function_sighted decl .function _ (outer.own (parts.1 _ _ rfl)) parts.2)
  | .ret _ none, _, outer, _ => .cons outer .nil
  | .ret _ (some value), path, outer, all =>
    .cons outer (expr_sighted value path outer (List.forall_mem_cons.mp all).2)
  | .class id name thisId fieldDecls methodDecls, path, outer, all => by
    have parts := List.forall_mem_cons.mp all
    have inner := List.forall_mem_cons.mp (List.forall_mem_append.mp parts.2).2
    have bodies := List.forall_mem_append.mp inner.2
    have named : Path.Shows seen (.own id name :: path) := outer.own (parts.1 _ _ rfl)
    have inside : Path.Shows seen (.members thisId :: .own id name :: path) :=
      named.cons (List.forall_mem_singleton.mpr (inner.1 _ _ rfl))
    refine .cons outer ((members_sighted named _ _).append (.cons inside ?_))
    exact (fields_sighted fieldDecls _ (inside.bare rfl) bodies.1).append
      (methods_sighted methodDecls _ inside bodies.2)

theorem stmts_sighted : ∀ (ss : List Stmt) (path : Path), path.Shows seen →
    (∀ site ∈ stmts path ss, site.mention.Tells seen) → Sighted seen (stmts path ss)
  | [], _, _, _ => .nil
  | s :: rest, path, outer, all =>
    have parts := List.forall_mem_append.mp all
    (stmt_sighted s path outer parts.1).append
      (stmts_sighted rest _ (outer.past (tells_declared s path parts.1)) parts.2)

theorem function_sighted : ∀ (decl : FunctionDecl) (role : FunctionKind) (path : Path),
    path.Shows seen → (∀ site ∈ function role path decl, site.mention.Tells seen) →
      Sighted seen (function role path decl)
  | .mk _ _ parameters body, role, path, outer, all => by
    have parts := List.forall_mem_append.mp all
    obtain ⟨sighted, inside⟩ := params_sighted parameters [] (outer.bare rfl) parts.1
    rw [List.append_nil] at inside
    exact sighted.append (stmts_sighted body _ inside parts.2)

theorem methods_sighted : ∀ (decls : List FunctionDecl) (path : Path), path.Shows seen →
    (∀ site ∈ methods path decls, site.mention.Tells seen) → Sighted seen (methods path decls)
  | [], _, _, _ => .nil
  | decl :: rest, path, outer, all =>
    have parts := List.forall_mem_append.mp all
    (function_sighted decl _ path outer parts.1).append (methods_sighted rest path outer parts.2)

theorem fields_sighted : ∀ (decls : List FieldDecl) (path : Path), path.Shows seen →
    (∀ site ∈ fields path decls, site.mention.Tells seen) → Sighted seen (fields path decls)
  | [], _, _, _ => .nil
  | .mk _ none :: rest, path, outer, all => fields_sighted rest path outer all
  | .mk _ (some initial) :: rest, path, outer, all =>
    have parts := List.forall_mem_append.mp all
    (expr_sighted initial path outer parts.1).append (fields_sighted rest path outer parts.2)

end

/-- Every declaration in sight of a site has a site of its own in the same program, under its name. -/
theorem program_sighted (statements : List Stmt) :
    Sighted (Binds (program statements)) (program statements) :=
  stmts_sighted statements [] Path.shows_nil fun site member _ _ binds => ⟨site, member, binds⟩

end Sites

/-- The node of a declaration that got a slot is among those that were counted. -/
theorem Site.mem_slotted {bindings : Bindings} {site : Site} (bound : site.Bound bindings)
    {id : NodeId} {slot : Slot} (declares : site.mention.declared? = some id)
    (known : bindings.slot? id = some slot) : id ∈ site.slotted := by
  obtain ⟨path, mention⟩ := site
  cases mention with
  | declaration own name =>
    cases declares
    change (bindings.slot? id).isSome = path.isLocal at bound
    rw [known] at bound
    change id ∈ if path.isLocal = true then [id] else []
    rw [← bound]
    exact List.mem_singleton.mpr rfl
  | receiver own =>
    cases declares
    exact List.mem_singleton.mpr rfl
  | _ => cases declares

namespace Recorded

variable {sites : List Site} {before after : Bindings} {id other : NodeId} {slot : Slot}

theorem mem_slotted (recorded : Recorded sites before after) (declares : Sites.Declares sites id)
    (known : after.slot? id = some slot) : id ∈ Sites.slotted sites := by
  obtain ⟨site, member, own⟩ := declares
  exact List.mem_flatMap.mpr
    ⟨site, member, Site.mem_slotted (recorded.bound site member) own known⟩

/-- Declarations get the slots that follow those given out before. -/
theorem range_of_declares (recorded : Recorded sites before after)
    (declares : Sites.Declares sites id) (known : after.slot? id = some slot) :
    before.nextSlot ≤ slot ∧ slot < after.nextSlot := by
  have listed : some slot ∈ (Sites.slotted sites).map after.slot? :=
    List.mem_map.mpr ⟨id, recorded.mem_slotted declares known, known⟩
  rw [recorded.slots, List.mem_map_of_injective (fun _ _ => Option.some.inj),
    List.mem_range'_1] at listed
  rw [recorded.next]
  exact listed

theorem eq_of_declares (recorded : Recorded sites before after)
    (one : Sites.Declares sites id) (two : Sites.Declares sites other)
    (known : after.slot? id = some slot) (same : after.slot? other = some slot) : id = other := by
  have distinct : ((Sites.slotted sites).map after.slot?).Nodup := by
    rw [recorded.slots]
    exact List.Nodup.map (fun _ _ => Option.some.inj) List.nodup_range'
  exact List.inj_on_of_nodup_map distinct (recorded.mem_slotted one known)
    (recorded.mem_slotted two same) (known.trans same.symm)

end Recorded

/-- A node that refers to a name has a slot only together with a declaration of the name in sight. -/
theorem Bindings.Means.binder {bindings : Bindings} {path : Path} {name : String} {id : NodeId}
    {slot : Slot} (means : bindings.Means path name id) (known : bindings.slot? id = some slot) :
    ∃ b ∈ path.binders, b.name = name ∧ bindings.slot? b.id = some slot := by
  unfold Bindings.Means at means
  cases found : path.declaration? name with
  | none =>
    rw [found] at means
    rw [means] at known
    cases known
  | some declaration =>
    rw [found] at means
    obtain ⟨own, declared, shared⟩ := means
    cases known.symm.trans shared
    obtain ⟨b, member, rfl, named⟩ := Path.mem_of_declaration? found
    exact ⟨b, member, named, declared⟩

theorem Site.binder_of_referring {bindings : Bindings} {site : Site} {id : NodeId} {slot : Slot}
    (bound : site.Bound bindings) (refers : site.mention.referring? = some id)
    (known : bindings.slot? id = some slot) :
    ∃ b ∈ site.path.binders, bindings.slot? b.id = some slot := by
  obtain ⟨path, mention⟩ := site
  cases mention with
  | reference own name =>
    cases refers
    obtain ⟨b, member, -, same⟩ := Bindings.Means.binder bound known
    exact ⟨b, member, same⟩
  | this own keyword =>
    cases refers
    obtain ⟨b, member, -, same⟩ := Bindings.Means.binder bound known
    exact ⟨b, member, same⟩
  | _ => cases refers

/-- Every slot that a resolved program uses is that of one of its declarations. -/
theorem Sites.declaration_of_mem_nodes {bindings : Bindings} {statements : List Stmt}
    (bound : ∀ site ∈ program statements, site.Bound bindings) {id : NodeId} {slot : Slot}
    (member : id ∈ nodes (program statements)) (known : bindings.slot? id = some slot) :
    ∃ declaration, Declares (program statements) declaration ∧
      bindings.slot? declaration = some slot := by
  obtain ⟨site, inside, own⟩ := List.mem_flatMap.mp member
  rcases Mention.mem_nodes.mp own with declares | refers
  · exact ⟨id, ⟨site, inside, declares⟩, known⟩
  · obtain ⟨b, inSight, same⟩ := Site.binder_of_referring (bound site inside) refers known
    exact ⟨b.id, (program_sighted statements site inside b inSight).declares, same⟩

end Lox
