import Lox.Proofs.Scope.Binding

set_option autoImplicit false

/-! What resolution owes to receivers. The slot in which methods find their receiver is that of no other
declaration: whatever is declared or assigned has another slot, and `this` has the slot of the innermost
class around it. -/

namespace Lox

namespace Tidy

section

variable (bindings : Bindings) (receivers : Slot → Prop)

/-- Writing to a node changes no receiver. -/
def Free (id : NodeId) : Prop :=
  ∀ slot, bindings.slot? id = some slot → ¬receivers slot

def params (parameters : List Param) : Prop :=
  ∀ param ∈ parameters, Free bindings receivers param.id

mutual

/-- An expression inside a class whose methods find their receiver in a given slot. -/
def expr (own : Option Slot) : Expr → Prop
  | .literal _ => True
  | .unary _ right => expr own right
  | .binary left _ right => expr own left ∧ expr own right
  | .logical left _ right => expr own left ∧ expr own right
  | .ternary condition thenBranch elseBranch =>
    expr own condition ∧ expr own thenBranch ∧ expr own elseBranch
  | .grouping inner => expr own inner
  | .variable _ _ => True
  | .assign id _ value => Free bindings receivers id ∧ expr own value
  | .call callee _ arguments => expr own callee ∧ exprs own arguments
  | .function decl => function own decl
  | .get object _ => expr own object
  | .set object _ value => expr own object ∧ expr own value
  | .this id _ => bindings.slot? id = own

def exprs (own : Option Slot) : List Expr → Prop
  | [] => True
  | e :: rest => expr own e ∧ exprs own rest

def stmt (own : Option Slot) : Stmt → Prop
  | .expression value => expr own value
  | .print value => expr own value
  | .var id _ none => Free bindings receivers id
  | .var id _ (some initial) => Free bindings receivers id ∧ expr own initial
  | .block body => stmts own body
  | .branch condition thenBranch none => expr own condition ∧ stmt own thenBranch
  | .branch condition thenBranch (some elseBranch) =>
    expr own condition ∧ stmt own thenBranch ∧ stmt own elseBranch
  | .loop condition body => expr own condition ∧ stmt own body
  | .function id _ decl => Free bindings receivers id ∧ function own decl
  | .ret _ none => True
  | .ret _ (some value) => expr own value
  | .class id _ thisId fieldDecls methodDecls =>
    Free bindings receivers id ∧ (∃ slot, bindings.slot? thisId = some slot ∧ receivers slot) ∧
      fields (bindings.slot? thisId) fieldDecls ∧ functions (bindings.slot? thisId) methodDecls

def stmts (own : Option Slot) : List Stmt → Prop
  | [] => True
  | s :: rest => stmt own s ∧ stmts own rest

def function (own : Option Slot) : FunctionDecl → Prop
  | .mk _ _ parameters body => params bindings receivers parameters ∧ stmts own body

def functions (own : Option Slot) : List FunctionDecl → Prop
  | [] => True
  | decl :: rest => function own decl ∧ functions own rest

def fields (own : Option Slot) : List FieldDecl → Prop
  | [] => True
  | .mk _ none :: rest => fields own rest
  | .mk _ (some initial) :: rest => expr own initial ∧ fields own rest

end
end
end Tidy

section

variable (bindings : Bindings) (receivers : Slot → Prop)

/-- A site that is bound as its path says; if it declares something, then not in the slot of a receiver,
unless it is one. -/
structure Site.Fair (site : Site) : Prop where
  bound : site.Bound bindings
  declared : ∀ id name, site.mention = .declaration id name → Tidy.Free bindings receivers id
  receives : ∀ id, site.mention = .receiver id →
    ∃ slot, bindings.slot? id = some slot ∧ receivers slot

/-- A place where no name but `this` means a receiver, and `this` the one in a given slot. -/
structure Path.Fair (own : Option Slot) (path : Path) : Prop where
  names : ∀ name id, name ≠ thisName → path.declaration? name = some id →
    Tidy.Free bindings receivers id
  receiver : (path.declaration? thisName).bind bindings.slot? = own

end

namespace Path.Fair

variable {bindings : Bindings} {receivers : Slot → Prop} {own : Option Slot} {path : Path}

theorem of_same {other : Path} (fair : Path.Fair bindings receivers own path)
    (same : ∀ name, other.declaration? name = path.declaration? name) :
    Path.Fair bindings receivers own other := by
  refine ⟨fun name id notThis found => fair.names name id notThis ?_, ?_⟩
  · rw [← same]
    exact found
  · rw [same]
    exact fair.receiver

/-- With one more name in sight. -/
theorem of_more {other : Path} {id : NodeId} (fair : Path.Fair bindings receivers own path)
    (free : Tidy.Free bindings receivers id)
    (more : ∀ name, other.declaration? name = path.declaration? name ∨
      name ≠ thisName ∧ other.declaration? name = some id) :
    Path.Fair bindings receivers own other := by
  refine ⟨fun name found notThis isFound => ?_, ?_⟩
  · rcases more name with same | ⟨-, new⟩
    · exact fair.names name found notThis (same ▸ isFound)
    · rw [new] at isFound
      cases isFound
      exact free
  · rcases more thisName with same | ⟨impossible, -⟩
    · rw [same]
      exact fair.receiver
    · exact absurd rfl impossible

theorem param (role : FunctionKind) {param : Param} {earlier : List Param}
    (fair : Path.Fair bindings receivers own (.function role earlier [] :: path))
    (free : Tidy.Free bindings receivers param.id) (name : param.name.lexeme ≠ thisName) :
    Path.Fair bindings receivers own (.function role (param :: earlier) [] :: path) := by
  refine fair.of_more free fun wanted => ?_
  rw [Path.declaration?_param]
  split
  · next same => exact .inr ⟨same ▸ name, rfl⟩
  · exact .inl rfl

theorem named {id : NodeId} {name : Token} (fair : Path.Fair bindings receivers own path)
    (free : Tidy.Free bindings receivers id) (notThis : name.lexeme ≠ thisName) :
    Path.Fair bindings receivers own (.own id name :: path) := by
  refine fair.of_more free fun wanted => ?_
  rw [Path.declaration?_own]
  split
  · next here => exact .inr ⟨here.2 ▸ notThis, rfl⟩
  · exact .inl rfl

theorem members (fair : Path.Fair bindings receivers own path) (thisId : NodeId) :
    Path.Fair bindings receivers (bindings.slot? thisId) (.members thisId :: path) := by
  refine ⟨fun name id notThis found => ?_, ?_⟩
  · rw [Path.declaration?_members, if_neg fun same => notThis same.symm] at found
    exact fair.names name id notThis found
  · rw [Path.declaration?_members, if_pos (show "this" = thisName from rfl)]
    rfl

theorem past (fair : Path.Fair bindings receivers own path) (holds : path.holdsStatements = true)
    {s : Stmt} (declared : ∀ b ∈ s.declared, b.name ≠ thisName ∧ Tidy.Free bindings receivers b.id) :
    Path.Fair bindings receivers own (path.past s) := by
  have either (name : String) : (path.past s).declaration? name = path.declaration? name ∨
      ∃ b ∈ s.declared, b.name = name ∧ (path.past s).declaration? name = some b.id := by
    rw [Path.declaration?_past_of_declared name holds rfl]
    split
    · cases found : (s.declared.filter (!·.underway)).find? (·.name == name) with
      | none => exact .inl rfl
      | some b =>
          have member := List.mem_of_find?_eq_some found
          exact .inr ⟨b, List.mem_of_mem_filter member, by simpa using List.find?_some found, rfl⟩
    · exact .inl rfl
  refine ⟨fun name id notThis found => ?_, ?_⟩
  · rcases either name with same | ⟨b, member, -, new⟩
    · exact fair.names name id notThis (same ▸ found)
    · rw [new] at found
      cases found
      exact (declared b member).2
  · rcases either thisName with same | ⟨b, member, isThis, -⟩
    · rw [same]
      exact fair.receiver
    · exact absurd isThis (declared b member).1

theorem free_of_means (fair : Path.Fair bindings receivers own path) {name : String} {id : NodeId}
    (notThis : name ≠ thisName) (means : bindings.Means path name id) :
    Tidy.Free bindings receivers id := by
  intro slot bound
  unfold Bindings.Means at means
  cases found : path.declaration? name with
  | none =>
      rw [found] at means
      rw [bound] at means
      cases means
  | some declaration =>
      rw [found] at means
      obtain ⟨wanted, first, second⟩ := means
      cases Option.some.inj (second.symm.trans bound)
      exact fair.names name declaration notThis found _ first

theorem slot_of_means (fair : Path.Fair bindings receivers own path) {id : NodeId}
    (means : bindings.Means path thisName id) : bindings.slot? id = own := by
  have receiver := fair.receiver
  unfold Bindings.Means at means
  cases found : path.declaration? thisName with
  | none =>
      rw [found] at means receiver
      exact means.trans receiver
  | some declaration =>
      rw [found] at means receiver
      obtain ⟨wanted, first, second⟩ := means
      exact second.trans (first.symm.trans receiver)

end Path.Fair

namespace Tidy

variable {bindings : Bindings} {receivers : Slot → Prop}

/-- What a statement adds to its scope is no receiver. -/
theorem declared_free {path : Path} {s : Stmt} (regular : Regular.stmt s)
    (sites : ∀ site ∈ Sites.stmt path s, site.Fair bindings receivers) :
    ∀ b ∈ s.declared, b.name ≠ thisName ∧ Free bindings receivers b.id := by
  intro b member
  have head {id : NodeId} {name : Token} {rest : List Site}
      (all : ∀ site ∈ (⟨path, .declaration id name⟩ : Site) :: rest, site.Fair bindings receivers) :
      Free bindings receivers id :=
    (all _ List.mem_cons_self).declared id name rfl
  cases s with
  | var id name initial =>
      cases List.mem_singleton.mp member
      cases initial with
      | none => exact ⟨regular, head sites⟩
      | some initial => exact ⟨regular.1, head sites⟩
  | function id name decl =>
      cases List.mem_singleton.mp member
      exact ⟨regular.1, head sites⟩
  | «class» id name thisId fieldDecls methodDecls =>
      cases List.mem_singleton.mp member
      exact ⟨regular.1, head sites⟩
  | branch condition thenBranch elseBranch =>
      cases elseBranch with
      | none =>
          rw [Stmt.declared, regular.2.2] at member
          cases member
      | some elseBranch =>
          rw [Stmt.declared, regular.2.1.2, regular.2.2.2] at member
          cases member
  | loop condition body =>
      rw [Stmt.declared, regular.2.2] at member
      cases member
  | _ => cases member

theorem params_tidy {role : FunctionKind} {own : Option Slot} {path : Path} :
    ∀ (parameters earlier : List Param), Regular.params parameters →
      Path.Fair bindings receivers own (.function role earlier [] :: path) →
        (∀ site ∈ Sites.params role path earlier parameters, site.Fair bindings receivers) →
          params bindings receivers parameters ∧
            Path.Fair bindings receivers own
              (.function role (parameters.reverse ++ earlier) [] :: path)
  | [], _, _, fair, _ => ⟨nofun, fair⟩
  | param :: rest, earlier, regular, fair, sites => by
      have parts := List.forall_mem_cons.mp sites
      have free := parts.1.declared param.id param.name rfl
      have name := regular param List.mem_cons_self
      obtain ⟨others, inside⟩ := params_tidy rest (param :: earlier)
        (fun other member => regular other (List.mem_cons_of_mem _ member))
        (fair.param role free name) parts.2
      rw [List.reverse_cons, List.append_assoc, List.singleton_append]
      exact ⟨List.forall_mem_cons.mpr ⟨free, others⟩, inside⟩

mutual

theorem expr_tidy : ∀ (e : Expr) (own : Option Slot) (path : Path),
    Path.Fair bindings receivers own path → Regular.expr e →
      (∀ site ∈ Sites.expr path e, site.Fair bindings receivers) → expr bindings receivers own e
  | .literal _, _, _, _, _, _ => trivial
  | .unary _ right, own, path, fair, regular, sites => expr_tidy right own path fair regular sites
  | .binary left _ right, own, path, fair, regular, sites =>
      have parts := List.forall_mem_append.mp sites
      ⟨expr_tidy left own path fair regular.1 parts.1, expr_tidy right own path fair regular.2 parts.2⟩
  | .logical left _ right, own, path, fair, regular, sites =>
      have parts := List.forall_mem_append.mp sites
      ⟨expr_tidy left own path fair regular.1 parts.1, expr_tidy right own path fair regular.2 parts.2⟩
  | .ternary condition thenBranch elseBranch, own, path, fair, regular, sites =>
      have parts := List.forall_mem_append.mp sites
      have first := List.forall_mem_append.mp parts.1
      ⟨expr_tidy condition own path fair regular.1 first.1,
        expr_tidy thenBranch own path fair regular.2.1 first.2,
        expr_tidy elseBranch own path fair regular.2.2 parts.2⟩
  | .grouping inner, own, path, fair, regular, sites => expr_tidy inner own path fair regular sites
  | .variable _ _, _, _, _, _, _ => trivial
  | .assign id name value, own, path, fair, regular, sites =>
      have parts := List.forall_mem_append.mp sites
      ⟨fair.free_of_means regular.1 (parts.2 _ List.mem_cons_self).bound,
        expr_tidy value own path fair regular.2 parts.1⟩
  | .call callee _ arguments, own, path, fair, regular, sites =>
      have parts := List.forall_mem_append.mp sites
      ⟨expr_tidy callee own path fair regular.1 parts.1,
        exprs_tidy arguments own path fair regular.2 parts.2⟩
  | .function decl, own, path, fair, regular, sites =>
      function_tidy decl .function own path fair regular sites
  | .get object _, own, path, fair, regular, sites => expr_tidy object own path fair regular sites
  | .set object _ value, own, path, fair, regular, sites =>
      have parts := List.forall_mem_append.mp sites
      ⟨expr_tidy object own path fair regular.1 parts.2,
        expr_tidy value own path fair regular.2 parts.1⟩
  | .this id keyword, own, path, fair, regular, sites => by
      have means : bindings.Means path keyword.lexeme id := (sites _ List.mem_cons_self).bound
      rw [show keyword.lexeme = thisName from regular] at means
      exact fair.slot_of_means means

theorem exprs_tidy : ∀ (es : List Expr) (own : Option Slot) (path : Path),
    Path.Fair bindings receivers own path → Regular.exprs es →
      (∀ site ∈ Sites.exprs path es, site.Fair bindings receivers) →
        exprs bindings receivers own es
  | [], _, _, _, _, _ => trivial
  | e :: rest, own, path, fair, regular, sites =>
      have parts := List.forall_mem_append.mp sites
      ⟨expr_tidy e own path fair regular.1 parts.1, exprs_tidy rest own path fair regular.2 parts.2⟩

theorem stmt_tidy : ∀ (s : Stmt) (own : Option Slot) (path : Path),
    Path.Fair bindings receivers own path → path.holdsStatements = true → Regular.stmt s →
      (∀ site ∈ Sites.stmt path s, site.Fair bindings receivers) → stmt bindings receivers own s
  | .expression value, own, path, fair, _, regular, sites =>
      expr_tidy value own path fair regular sites
  | .print value, own, path, fair, _, regular, sites => expr_tidy value own path fair regular sites
  | .var id name none, _, _, _, _, _, sites => (sites _ List.mem_cons_self).declared id name rfl
  | .var id name (some initial), own, path, fair, _, regular, sites =>
      have parts := List.forall_mem_cons.mp sites
      ⟨parts.1.declared id name rfl, expr_tidy initial own (.initializer id name :: path)
        (fair.of_same fun wanted => path.declaration?_initializer wanted id name) regular.2 parts.2⟩
  | .block body, own, path, fair, _, regular, sites =>
      stmts_tidy body own (.block [] :: path) (fair.of_same path.declaration?_block) rfl regular sites
  | .branch condition thenBranch none, own, path, fair, holds, regular, sites =>
      have parts := List.forall_mem_append.mp sites
      ⟨expr_tidy condition own path fair regular.1 parts.1,
        stmt_tidy thenBranch own path fair holds regular.2.1 parts.2⟩
  | .branch condition thenBranch (some elseBranch), own, path, fair, holds, regular, sites =>
      have parts := List.forall_mem_append.mp sites
      have first := List.forall_mem_append.mp parts.1
      ⟨expr_tidy condition own path fair regular.1 first.1,
        stmt_tidy thenBranch own path fair holds regular.2.1.1 first.2,
        stmt_tidy elseBranch own (path.past thenBranch)
          (fair.past holds (declared_free regular.2.1.1 first.2)) (Path.holdsStatements_past holds)
          regular.2.2.1 parts.2⟩
  | .loop condition body, own, path, fair, holds, regular, sites =>
      have parts := List.forall_mem_append.mp sites
      ⟨expr_tidy condition own path fair regular.1 parts.1,
        stmt_tidy body own path fair holds regular.2.1 parts.2⟩
  | .function id name decl, own, _, fair, _, regular, sites =>
      have parts := List.forall_mem_cons.mp sites
      have free := parts.1.declared id name rfl
      ⟨free, function_tidy decl .function own _ (fair.named free regular.1) regular.2 parts.2⟩
  | .ret _ none, _, _, _, _, _, _ => trivial
  | .ret _ (some value), own, path, fair, _, regular, sites =>
      expr_tidy value own path fair regular (List.forall_mem_cons.mp sites).2
  | .class id name thisId fieldDecls methodDecls, _, _, fair, _, regular, sites =>
      have parts := List.forall_mem_cons.mp sites
      have free := parts.1.declared id name rfl
      have inner := List.forall_mem_cons.mp (List.forall_mem_append.mp parts.2).2
      have members := List.forall_mem_append.mp inner.2
      have inside := (fair.named free regular.1).members thisId
      ⟨free, inner.1.receives thisId rfl,
        fields_tidy fieldDecls _ _ (inside.of_same (Path.declaration?_field _)) regular.2.1 members.1,
        functions_tidy methodDecls _ _ inside regular.2.2 members.2⟩

theorem stmts_tidy : ∀ (ss : List Stmt) (own : Option Slot) (path : Path),
    Path.Fair bindings receivers own path → path.holdsStatements = true → Regular.stmts ss →
      (∀ site ∈ Sites.stmts path ss, site.Fair bindings receivers) →
        stmts bindings receivers own ss
  | [], _, _, _, _, _, _ => trivial
  | s :: rest, own, path, fair, holds, regular, sites =>
      have parts := List.forall_mem_append.mp sites
      ⟨stmt_tidy s own path fair holds regular.1 parts.1,
        stmts_tidy rest own (path.past s) (fair.past holds (declared_free regular.1 parts.1))
          (Path.holdsStatements_past holds) regular.2 parts.2⟩

theorem function_tidy : ∀ (decl : FunctionDecl) (role : FunctionKind) (own : Option Slot)
    (path : Path), Path.Fair bindings receivers own path → Regular.function decl →
      (∀ site ∈ Sites.function role path decl, site.Fair bindings receivers) →
        function bindings receivers own decl
  | .mk _ _ parameters body, role, own, path, fair, regular, sites => by
      have parts := List.forall_mem_append.mp sites
      have entered := fair.of_same fun name => path.declaration?_function name role
      obtain ⟨free, inside⟩ := params_tidy parameters [] regular.1 entered parts.1
      rw [List.append_nil] at inside
      exact ⟨free, stmts_tidy body own _ inside rfl regular.2 parts.2⟩

theorem functions_tidy : ∀ (decls : List FunctionDecl) (own : Option Slot) (path : Path),
    Path.Fair bindings receivers own path → Regular.functions decls →
      (∀ site ∈ Sites.methods path decls, site.Fair bindings receivers) →
        functions bindings receivers own decls
  | [], _, _, _, _, _ => trivial
  | decl :: rest, own, path, fair, regular, sites =>
      have parts := List.forall_mem_append.mp sites
      ⟨function_tidy decl _ own path fair regular.1 parts.1,
        functions_tidy rest own path fair regular.2 parts.2⟩

theorem fields_tidy : ∀ (decls : List FieldDecl) (own : Option Slot) (path : Path),
    Path.Fair bindings receivers own path → Regular.fields decls →
      (∀ site ∈ Sites.fields path decls, site.Fair bindings receivers) →
        fields bindings receivers own decls
  | [], _, _, _, _, _ => trivial
  | .mk _ none :: rest, own, path, fair, regular, sites =>
      fields_tidy rest own path fair regular sites
  | .mk _ (some initial) :: rest, own, path, fair, regular, sites =>
      have parts := List.forall_mem_append.mp sites
      ⟨expr_tidy initial own path fair regular.1 parts.1,
        fields_tidy rest own path fair regular.2 parts.2⟩

end

end Tidy

/-- The slots in which the methods of a program find their receivers. -/
def Sites.receivers (sites : List Site) (bindings : Bindings) (slot : Slot) : Prop :=
  ∃ site ∈ sites, ∃ id, site.mention = .receiver id ∧ bindings.slot? id = some slot

/-- Receivers have slots of their own. -/
theorem Recorded.fair {sites : List Site} {before after : Bindings}
    (recorded : Recorded sites before after) (nodup : (Sites.nodes sites).Nodup) :
    ∀ site ∈ sites, site.Fair after (Sites.receivers sites after) := by
  intro site member
  refine ⟨recorded.bound site member, fun id name declares slot bound receives => ?_,
    fun id receives => ?_⟩
  · obtain ⟨other, also, otherId, receives, sameSlot⟩ := receives
    have isLocal : site.path.isLocal = true := by
      have known := recorded.bound site member
      unfold Site.Bound at known
      rw [declares] at known
      rw [← known, bound]
      rfl
    have slotted : id ∈ Sites.slotted sites := by
      refine List.mem_flatMap.mpr ⟨site, member, ?_⟩
      unfold Site.slotted
      rw [declares, isLocal]
      exact List.mem_singleton.mpr rfl
    have alsoSlotted : otherId ∈ Sites.slotted sites := by
      refine List.mem_flatMap.mpr ⟨other, also, ?_⟩
      unfold Site.slotted
      rw [receives]
      exact List.mem_singleton.mpr rfl
    have distinct : ((Sites.slotted sites).map after.slot?).Nodup := by
      rw [recorded.slots]
      exact List.Nodup.map (fun _ _ => Option.some.inj) List.nodup_range'
    have same := List.inj_on_of_nodup_map distinct slotted alsoSlotted (bound.trans sameSlot.symm)
    have own : id ∈ site.nodes := by
      unfold Site.nodes
      rw [declares]
      exact List.mem_singleton.mpr rfl
    have shared : id ∈ other.nodes := by
      unfold Site.nodes
      rw [receives, same]
      exact List.mem_singleton.mpr rfl
    rw [Sites.eq_of_mem_nodes nodup member also own shared] at declares
    cases declares.symm.trans receives
  · have known := recorded.bound site member
    unfold Site.Bound at known
    rw [receives] at known
    obtain ⟨slot, bound⟩ := Option.isSome_iff_exists.mp known
    exact ⟨slot, bound, site, member, id, receives, bound⟩

/-- In an accepted program nothing is declared or assigned in the slot of a receiver, and `this` has the
slot of the class around it. -/
theorem resolve_tidy {program : List Stmt} {bindings : Bindings}
    (recorded : Recorded (Sites.program program) Bindings.empty bindings)
    (nodup : (Nodes.stmts program).Nodup) (regular : Regular.stmts program) :
    Tidy.stmts bindings (Sites.receivers (Sites.program program) bindings) none program := by
  refine Tidy.stmts_tidy program none [] ⟨nofun, rfl⟩ rfl regular ?_
  refine recorded.fair ?_
  rw [Sites.nodes_program]
  exact nodup

end Lox
