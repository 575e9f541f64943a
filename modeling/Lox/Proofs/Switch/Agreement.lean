import Lox.Proofs.Machine.Frank
import Lox.Proofs.Machine.Parallel
import Lox.Proofs.Scope.Binding
import Lox.Proofs.Switch.Operations

set_option autoImplicit false

/-! The interpreter and the direct interpreter end alike. Where a switch has been written out, its hidden
variable has the value of its subject in a cell of the block's own frame, and whatever subject, arms and
actions do leaves that cell as it is; so each comparison is with the value that the direct interpreter
has kept to itself. -/

namespace Lox

open Grammar.Rules (hiddenName armTest)

variable {known : Site → Prop} {veiled : Slot → Prop} {ctx : Context} {m n : Machine} {α β : Type}

/-! ### Names -/

theorem Veils.clear {bindings : Bindings} (veils : Veils known bindings veiled) {site : Site}
    (isKnown : known site) {id : NodeId} {name : Token} (mentions : site.mention.named? = some (id, name))
    (plain : name.Plain) : bindings.Clear veiled id :=
  fun slot bound => veils.free site isKnown id name slot mentions plain bound

theorem Sites.mem_params (role : FunctionKind) (path : Path) : ∀ (params earlier : List Param),
    ∀ param ∈ params, ∃ inside, ⟨inside, .declaration param.id param.name⟩ ∈
      Sites.params role path earlier params
  | first :: rest, earlier, param, member => by
    cases member with
    | head => exact ⟨_, List.mem_cons_self⟩
    | tail _ later =>
      obtain ⟨inside, found⟩ := mem_params role path rest (first :: earlier) param later
      exact ⟨inside, List.mem_cons_of_mem _ found⟩

/-! ### A switch that has been written out -/

namespace Exec

theorem stmts_singleton (s : Stmt) : stmts ctx [s] = stmt ctx s := by
  rw [← Guarded.stmts_frank, ← Guarded.stmt_frank]
  exact Guarded.stmts_singleton s

theorem stmts_switch (id : NodeId) (keyword : Token) (subject : Expr) (arms : Option Stmt) :
    stmts ctx (.var id (hiddenName id keyword) (some subject) :: arms.toList) = (do
      let value ← expr ctx subject
      declare ctx id (hiddenName id keyword) value
      stmts ctx arms.toList) := by
  rw [← Guarded.stmts_frank, ← Guarded.stmts_frank, ← Guarded.expr_frank, Guarded.stmts_chain]
  exact Guarded.switch_eq id keyword subject arms

theorem stmts_arm (id : NodeId) (hidden keyword : Token) (pattern : Expr) (action : Stmt)
    (rest : Option Stmt) :
    stmts ctx [.branch (armTest id hidden keyword pattern) action rest] = (do
      let value ← lookUp ctx id hidden
      let found ← expr ctx pattern
      if value.equals found then stmt ctx action else stmts ctx rest.toList) := by
  rw [← Guarded.stmts_frank, ← Guarded.stmts_frank, ← Guarded.expr_frank, ← Guarded.stmt_frank,
    ← Guarded.lookUp_frank, Guarded.stmts_chain, Guarded.stmts_singleton]
  exact Guarded.arm_eq id hidden keyword pattern action rest

end Exec

/-- Where the arms of a switch stand, the name of its hidden variable means that variable, which has a veiled
slot. -/
structure Direct.Hidden (bindings : Bindings) (veiled : Slot → Prop) (path : Path) (id : NodeId)
    (hidden : Token) (slot : Slot) : Prop where
  holds : path.holdsStatements = true
  hides : Direct.hides id hidden = true
  means : path.declaration? hidden.lexeme = some id
  bound : bindings.slot? id = some slot
  isVeiled : veiled slot

namespace Direct.Hidden

variable {bindings : Bindings} {path : Path} {id : NodeId} {hidden : Token} {slot : Slot}

theorem past (here : Hidden bindings veiled path id hidden slot) {action : Stmt}
    (bare : action.declared = []) : Hidden bindings veiled (path.past action) id hidden slot where
  holds := Path.holdsStatements_past here.holds
  hides := here.hides
  means := (Path.declaration?_past_nil _ here.holds bare).trans here.means
  bound := here.bound
  isVeiled := here.isVeiled

theorem slot_of_reference (here : Hidden bindings veiled path id hidden slot) {test : NodeId}
    (bound : Site.Bound bindings ⟨path, .reference test hidden⟩) : bindings.slot? test = some slot := by
  have means : bindings.Means path hidden.lexeme test := bound
  unfold Bindings.Means at means
  rw [here.means] at means
  obtain ⟨same, declared, refers⟩ := means
  have equal : slot = same := Option.some.inj (here.bound.symm.trans declared)
  rw [equal]
  exact refers

theorem of_block (veils : Veils known bindings veiled) (path : Path) (id : NodeId) (keyword : Token)
    (subject : Expr) (isKnown : known ⟨.block [] :: path, .declaration id (hiddenName id keyword)⟩) :
    ∃ slot, Hidden bindings veiled
      (Path.past (.block [] :: path) (.var id (hiddenName id keyword) (some subject))) id
      (hiddenName id keyword) slot := by
  have isLocal : (bindings.slot? id).isSome = true := veils.bound _ isKnown
  obtain ⟨slot, bound⟩ := Option.isSome_iff_exists.mp isLocal
  refine ⟨slot, ⟨rfl, hides_hiddenName id keyword, ?_, bound, ?_⟩⟩
  · rw [Path.declaration?_past _ rfl rfl]
    exact if_pos ⟨rfl, rfl⟩
  · exact veils.hidden _ isKnown id _ slot rfl (fun plain => plain id keyword rfl) bound

end Direct.Hidden

/-- The innermost frame has a value in a slot. -/
structure Machine.Remembers (m : Machine) (slot : Slot) (value : Value) : Prop where
  fits : m.environment.current.frame < m.environment.frames.size
  holds : (m.environment.frame m.environment.current.frame).get? slot = some value

/-- The machine with a new variable in its innermost frame. -/
def Machine.remember (m : Machine) (slot : Slot) (value : Value) : Machine :=
  { m with environment := m.environment.define slot value }

namespace Machine

variable {slot : Slot} {value : Value} {after : Machine}

theorem Remembers.saves (remembers : m.Remembers slot value) (isVeiled : veiled slot)
    (saves : m.Saves veiled after) : after.Remembers slot value := by
  constructor
  · rw [saves.current]
    exact Nat.lt_of_lt_of_le remembers.fits saves.size
  · rw [saves.current, saves.cells _ slot remembers.fits isVeiled]
    exact remembers.holds

theorem remembers_remember (fits : m.environment.current.frame < m.environment.frames.size) :
    (m.remember slot value).Remembers slot value := by
  constructor
  · change _ < (m.environment.setCell _ slot value).frames.size
    rw [Environment.size_setCell]
    exact fits
  · change ((m.environment.setCell _ slot value).frame _).get? slot = _
    rw [Environment.get?_frame_setCell, if_pos ⟨rfl, fits, rfl⟩]

/-- Code in a new frame has an innermost frame. -/
theorem Saves.fits {chain : Chain}
    (saves : Saves veiled { m with environment := m.environment.graft chain } after) :
    after.environment.current.frame = m.environment.frames.size ∧
      m.environment.frames.size < after.environment.frames.size := by
  refine ⟨by rw [saves.current]; rfl, Nat.lt_of_lt_of_le ?_ saves.size⟩
  change _ < (m.environment.frames.push Table.empty).size
  rw [Array.size_push]
  exact Nat.lt_succ_self _

/-- A hidden variable is new, so what was there before is saved. -/
theorem Saves.remember {chain : Chain}
    (saves : Saves veiled { m with environment := m.environment.graft chain } after) (slot : Slot)
    (value : Value) : m.SavesFrames veiled (after.remember slot value) := by
  have frames := (m.savesFrames_graft chain).trans saves.toSavesFrames
  refine ⟨?_, fun id wanted old isVeiled => ?_⟩
  · change _ ≤ (after.environment.setCell _ slot value).frames.size
    rw [Environment.size_setCell]
    exact frames.size
  · change ((after.environment.setCell _ slot value).frame id).get? wanted = _
    have other : after.environment.current.frame ≠ id := by
      rw [saves.fits.1]
      exact (Nat.ne_of_lt old).symm
    rw [Environment.get?_frame_setCell, if_neg fun both => other both.1]
    exact frames.cells id wanted old isVeiled

end Machine

namespace Exec

theorem lookUp_of_remembers {id : NodeId} {slot : Slot} {value : Value}
    (bound : ctx.bindings.slot? id = some slot) (remembers : m.Remembers slot value) (name : Token) :
    lookUp ctx id name m = .ok value m := by
  have found : m.environment.get? slot = some value := by
    unfold Environment.get? Environment.read? Chain.frames
    rw [List.findSome?_cons, remembers.holds]
  unfold lookUp
  rw [bound]
  dsimp only
  rw [found]

theorem declare_of_slot {id : NodeId} {slot : Slot} (bound : ctx.bindings.slot? id = some slot) (name : Token)
    (value : Value) : declare ctx id name value m = .ok () (m.remember slot value) := by
  unfold declare
  rw [bound]
  rfl

/-- Two sequences in a new frame, where the second part goes on from a machine with all the veiled cells that
were there before. -/
theorem Ended.restored_bind {middle other : Machine} {x y : Exec α} {f g : α → Exec β}
    (saves : m.SavesFrames veiled middle) (first : Ended known veiled middle (x middle) (y other))
    (later : ∀ a after last, middle.Moves known veiled after last → ∃ next,
      m.SavesFrames veiled next ∧ Ended known veiled next (f a after) (g a last)) :
    Ended known veiled m (Outcome.onState (·.restored m.environment.current) ((x >>= f) middle))
      (Outcome.onState (·.restored m.environment.current) ((y >>= g) other)) := by
  cases one : x middle with
  | ok a after =>
    cases two : y other with
    | ok b last =>
      rw [one, two] at first
      cases first with
      | ok moves =>
        obtain ⟨next, saved, ended⟩ := later a after last moves
        rw [Outcome.bind_of_ok one, Outcome.bind_of_ok two]
        exact ended.restored saved
    | error stop last =>
      rw [one, two] at first
      cases first
  | error stop after =>
    cases two : y other with
    | ok b last =>
      rw [one, two] at first
      cases first
    | error stop' last =>
      rw [one, two] at first
      cases first with
      | error moves =>
        rw [Outcome.bind_of_error one, Outcome.bind_of_error two]
        exact (Ended.error moves : Ended known veiled middle _ _).restored saves

end Exec

/-! ### Sites of parts -/

section

variable {path : Path}

theorem sites_block_switch {id : NodeId} {name : Token} {subject : Expr} {arms : List Stmt}
    (sites : ∀ site ∈ Sites.stmt path (.block (.var id name (some subject) :: arms)), known site) :
    known ⟨.block [] :: path, .declaration id name⟩ ∧
      (∀ site ∈ Sites.expr (.initializer id name :: .block [] :: path) subject, known site) ∧
      ∀ site ∈ Sites.stmts (Path.past (.block [] :: path) (.var id name (some subject))) arms,
        known site := by
  obtain ⟨first, rest⟩ := List.forall_mem_append.mp sites
  obtain ⟨own, inner⟩ := List.forall_mem_cons.mp first
  exact ⟨own, inner, rest⟩

theorem sites_arm {id : NodeId} {hidden keyword : Token} {pattern : Expr} {action : Stmt}
    {rest : Option Stmt}
    (sites : ∀ site ∈ Sites.stmts path [.branch (armTest id hidden keyword pattern) action rest],
      known site) :
    known ⟨path, .reference id hidden⟩ ∧ (∀ site ∈ Sites.expr path pattern, known site) ∧
      (∀ site ∈ Sites.stmt path action, known site) ∧
      ∀ site ∈ Sites.stmts (path.past action) rest.toList, known site := by
  have whole := (List.forall_mem_append.mp sites).1
  cases rest with
  | none =>
    obtain ⟨test, inAction⟩ := List.forall_mem_append.mp whole
    obtain ⟨own, inPattern⟩ := List.forall_mem_cons.mp test
    exact ⟨own, inPattern, inAction, fun _ impossible => nomatch impossible⟩
  | some other =>
    obtain ⟨parts, inOther⟩ := List.forall_mem_append.mp whole
    obtain ⟨test, inAction⟩ := List.forall_mem_append.mp parts
    obtain ⟨own, inPattern⟩ := List.forall_mem_cons.mp test
    exact ⟨own, inPattern, inAction,
      List.forall_mem_append.mpr ⟨inOther, fun _ impossible => nomatch impossible⟩⟩

end

/-! ### The induction -/

namespace Exec

open Direct (Hidden)

set_option linter.unusedSectionVars false

theorem stands_of_like {decl decl' : FunctionDecl} (alike : FunctionDecl.Like .plain decl decl')
    {role : FunctionKind} {path : Path} (sites : ∀ site ∈ Sites.function role path decl, known site) :
    decl.Stands known := by
  refine ⟨role, path, sites, ?_⟩
  have same := alike.eq Likeness.plain_exact
  subst same
  exact alike

section

variable (veils : Veils known ctx.bindings veiled) {other : FunctionId → List Value → Exec Value}
  (calls : ∀ id arguments, Beside known veiled (ctx.call id arguments) (other id arguments))
include veils calls

mutual

theorem expr_beside : ∀ {e e' : Expr}, Expr.Like .plain e e' → ∀ path : Path,
    (∀ site ∈ Sites.expr path e, known site) →
      Beside known veiled (expr ctx e) (Direct.expr { ctx with call := other } e)
  | _, _, .literal _, _, _ => .pure _
  | _, _, .unary _ rights, path, sites =>
    (expr_beside rights path sites).bind fun _ => beside_ofOperator _ _
  | _, _, .binary lefts _ rights, path, sites => by
    obtain ⟨inLeft, inRight⟩ := List.forall_mem_append.mp sites
    exact (expr_beside lefts path inLeft).bind fun _ =>
      (expr_beside rights path inRight).bind fun _ => beside_ofOperator _ _
  | _, _, .logical lefts _ rights, path, sites => by
    obtain ⟨inLeft, inRight⟩ := List.forall_mem_append.mp sites
    refine (expr_beside lefts path inLeft).bind fun left => ?_
    split
    · exact .pure left
    · exact expr_beside rights path inRight
  | _, _, .ternary conditions thens elses, path, sites => by
    obtain ⟨parts, inElse⟩ := List.forall_mem_append.mp sites
    obtain ⟨inCondition, inThen⟩ := List.forall_mem_append.mp parts
    refine (expr_beside conditions path inCondition).bind fun condition => ?_
    split
    · exact expr_beside thens path inThen
    · exact expr_beside elses path inElse
  | _, _, .grouping inners, path, sites => by
    unfold expr Direct.expr
    exact expr_beside inners path sites
  | _, _, .name names, path, sites =>
    beside_lookUp (veils.clear (sites _ List.mem_cons_self) rfl names.2.2) _
  | _, _, .assign names values, path, sites => by
    obtain ⟨inValue, own⟩ := List.forall_mem_append.mp sites
    have clear := veils.clear (own _ List.mem_cons_self) rfl names.2.2
    exact (expr_beside values path inValue).bind fun value =>
      (beside_store clear _ value).bind fun _ => .pure value
  | _, _, .call callees _ values, path, sites => by
    obtain ⟨inCallee, inArguments⟩ := List.forall_mem_append.mp sites
    exact (expr_beside callees path inCallee).bind fun callee =>
      (exprs_beside values path inArguments).bind fun arguments =>
        beside_invoke calls callee arguments _
  | _, _, .function decls, path, sites => beside_close (stands_of_like decls sites)
  | _, _, .get objects _, path, sites =>
    (expr_beside objects path sites).bind fun object => beside_getProperty object _
  | _, _, .set objects _ values, path, sites => by
    obtain ⟨inValue, inObject⟩ := List.forall_mem_append.mp sites
    refine (expr_beside objects path inObject).bind fun object => ?_
    refine (beside_receiver object _).bind fun id => ?_
    refine (expr_beside values path inValue).bind fun value => ?_
    exact (beside_setField id _ value).bind fun _ => .pure value
  | _, _, .this names, path, sites =>
    beside_lookUp (veils.clear (sites _ List.mem_cons_self) rfl names.2.2) _

theorem exprs_beside : ∀ {es es' : List Expr}, Exprs.Like .plain es es' → ∀ path : Path,
    (∀ site ∈ Sites.exprs path es, known site) →
      Beside known veiled (exprs ctx es) (Direct.exprs { ctx with call := other } es)
  | _, _, .nil, _, _ => .pure []
  | _, _, .cons head tail, path, sites => by
    obtain ⟨inHead, inTail⟩ := List.forall_mem_append.mp sites
    exact (expr_beside head path inHead).bind fun _ =>
      (exprs_beside tail path inTail).bind fun _ => .pure _

theorem stmt_beside : ∀ {s s' : Stmt}, Stmt.Like .plain s s' → ∀ path : Path,
    (∀ site ∈ Sites.stmt path s, known site) →
      Beside known veiled (stmt ctx s) (Direct.stmt { ctx with call := other } s)
  | _, _, .expression values, path, sites => (expr_beside values path sites).bind fun _ => .pure _
  | _, _, .print values, path, sites =>
    (expr_beside values path sites).bind fun value => (beside_print value).bind fun _ => .pure _
  | _, _, .var names, path, sites =>
    (beside_declare (veils.clear (sites _ List.mem_cons_self) rfl names.2.2) _ .nil).bind fun _ =>
      .pure _
  | _, _, .varInitial names initials, path, sites => by
    obtain ⟨own, inInitial⟩ := List.forall_mem_cons.mp sites
    exact (expr_beside initials _ inInitial).bind fun value =>
      (beside_declare (veils.clear own rfl names.2.2) _ value).bind fun _ => .pure _
  | _, _, .block bodies, path, sites => by
    rw [Direct.stmt_block _ (Direct.plain_of_like bodies)]
    exact beside_capture.bind fun here => (stmts_beside bodies _ sites).within here
  | _, _, .branch conditions thens, path, sites => by
    obtain ⟨inCondition, inThen⟩ := List.forall_mem_append.mp sites
    refine (expr_beside conditions path inCondition).bind fun condition => ?_
    split
    · exact stmt_beside thens path inThen
    · exact .pure _
  | _, _, .branchElse conditions thens elses, path, sites => by
    obtain ⟨parts, inElse⟩ := List.forall_mem_append.mp sites
    obtain ⟨inCondition, inThen⟩ := List.forall_mem_append.mp parts
    refine (expr_beside conditions path inCondition).bind fun condition => ?_
    split
    · exact stmt_beside thens path inThen
    · exact stmt_beside elses _ inElse
  | _, _, .loop conditions bodies, path, sites => by
    obtain ⟨inCondition, inBody⟩ := List.forall_mem_append.mp sites
    unfold stmt Direct.stmt
    exact .repeatWhile ((expr_beside conditions path inCondition).map _)
      (stmt_beside bodies path inBody) _
  | _, _, .function names decls, path, sites => by
    obtain ⟨own, inFunction⟩ := List.forall_mem_cons.mp sites
    exact (beside_close (stands_of_like decls inFunction)).bind fun value =>
      (beside_declare (veils.clear own rfl names.2.2) _ value).bind fun _ => .pure _
  | _, _, .ret _, _, _ => .pure _
  | _, _, .retValue _ values, path, sites =>
    (expr_beside values path (List.forall_mem_cons.mp sites).2).bind fun _ => .pure _
  | _, _, .classDecl names _ _ fieldDecls methodDecls, path, sites => by
    obtain ⟨own, inside⟩ := List.forall_mem_cons.mp sites
    obtain ⟨inFields, inMethods⟩ := List.forall_mem_append.mp
      (List.forall_mem_cons.mp (List.forall_mem_append.mp inside).2).2
    have clear := veils.clear own rfl names.2.2
    refine (beside_declare clear _ .nil).bind fun _ => ?_
    refine (fields_beside fieldDecls _ Table.empty inFields).bind fun members => ?_
    refine beside_capture.bind fun here => ?_
    refine (beside_addMethods here _ members (methods_stand methodDecls _ inMethods)).bind
      fun members => ?_
    refine (Beside.silent (fun _ _ => rfl) (fun _ => rfl) fun _ => rfl).bind fun made => ?_
    exact (beside_store clear _ (.class made)).bind fun _ => .pure _
  | _, _, @Stmt.Like.switch _ id _ keyword _ subject _ arms _ _ _ subjects chains, path, sites => by
    obtain ⟨own, inSubject, inArms⟩ := sites_block_switch sites
    obtain ⟨slot, here⟩ := Hidden.of_block veils path id keyword subject own
    unfold stmt Direct.stmt
    rw [stmts_switch, Direct.block_of_hides _ here.hides]
    refine beside_capture.bind fun around => ?_
    intro m n alike stands
    rw [within_apply, within_apply, alike.current]
    refine Ended.restored_bind (m.savesFrames_graft around)
      (expr_beside subjects _ inSubject _ _ (alike.graft around) (stands.of_functions rfl)) ?_
    intro value after last moves
    obtain ⟨innermost, fits⟩ := moves.saves.fits
    refine ⟨after.remember slot value, moves.saves.remember slot value, ?_⟩
    rw [Outcome.bind_of_ok (declare_of_slot here.bound _ value)]
    exact chain_ended chains _ slot value here inArms _ _ (moves.alike.setVeiled _ value here.isVeiled)
      (moves.stands.of_functions rfl) (Machine.remembers_remember (innermost.symm ▸ fits))

theorem chain_ended : ∀ {hidden keyword hidden' keyword' : Token} {arms arms' : Option Stmt},
    Chain.Like .plain hidden keyword hidden' keyword' arms arms' → ∀ {id : NodeId} (path : Path)
      (slot : Slot) (value : Value), Hidden ctx.bindings veiled path id hidden slot →
      (∀ site ∈ Sites.stmts path arms.toList, known site) → ∀ m n : Machine, m.AlikeBut veiled n →
      m.Stands known → m.Remembers slot value →
        Ended known veiled m (stmts ctx arms.toList m)
          (Direct.choose { ctx with call := other } id value arms.toList n)
  | _, _, _, _, _, _, .nil, _, _, _, _, _, _, m, _, alike, stands, _ => .ok ⟨alike, stands, .refl m⟩
  | _, _, _, _, _, _, .default actions _ _, id, path, _, value, _, sites, m, n, alike, stands, _ => by
    change Ended known veiled m (stmts ctx [_] m) (Direct.choose _ id value [_] n)
    rw [stmts_singleton, Direct.choose_default _ (Direct.isArm_of_like id actions)]
    exact stmt_beside actions path (List.forall_mem_append.mp sites).1 m n alike stands
  | hidden, _, _, _, _, _, .arm _ patterns actions bare _ rests, id, path, slot, value, here, sites, m, n,
      alike, stands, remembers => by
    obtain ⟨own, inPattern, inAction, inRest⟩ := sites_arm sites
    have bound := here.slot_of_reference (veils.bound _ own)
    change Ended known veiled m (stmts ctx [_] m) (Direct.choose _ id value [_] n)
    rw [stmts_arm, Outcome.bind_of_ok (lookUp_of_remembers bound remembers hidden), armTest,
      Direct.choose_arm _ here.hides]
    refine Ended.bind (expr_beside patterns path inPattern m n alike stands) ?_
    intro found after last moves
    split
    · exact stmt_beside actions path inAction after last moves.alike moves.stands
    · exact chain_ended rests _ slot value (here.past bare) inRest after last moves.alike moves.stands
        (remembers.saves here.isVeiled moves.saves)

theorem stmts_beside : ∀ {ss ss' : List Stmt}, Stmts.Like .plain ss ss' → ∀ path : Path,
    (∀ site ∈ Sites.stmts path ss, known site) →
      Beside known veiled (stmts ctx ss) (Direct.stmts { ctx with call := other } ss)
  | _, _, .nil, _, _ => .pure _
  | _, _, .cons head tail, path, sites => by
    obtain ⟨inHead, inTail⟩ := List.forall_mem_append.mp sites
    refine (stmt_beside head path inHead).bind fun flow => ?_
    cases flow with
    | normal => exact stmts_beside tail _ inTail
    | returned value => exact .pure _

theorem fields_beside : ∀ {decls decls' : List FieldDecl}, Fields.Like .plain decls decls' →
    ∀ (path : Path) (members : Table String Value), (∀ site ∈ Sites.fields path decls, known site) →
      Beside known veiled (fields ctx members decls)
        (Direct.fields { ctx with call := other } members decls)
  | _, _, .nil, _, members, _ => .pure members
  | _, _, .cons _ tail, path, members, sites => fields_beside tail path _ sites
  | _, _, .consInitial _ initials tail, path, members, sites => by
    obtain ⟨inInitial, inTail⟩ := List.forall_mem_append.mp sites
    exact (expr_beside initials path inInitial).bind fun value => fields_beside tail path _ inTail

theorem methods_stand : ∀ {decls decls' : List FunctionDecl}, Functions.Like .plain decls decls' →
    ∀ path : Path, (∀ site ∈ Sites.methods path decls, known site) →
      ∀ decl ∈ decls, decl.Stands known
  | _, _, .nil, _, _ => nofun
  | _, _, .cons head tail, path, sites => by
    obtain ⟨inHead, inTail⟩ := List.forall_mem_append.mp sites
    exact List.forall_mem_cons.mpr ⟨stands_of_like head inHead, methods_stand tail path inTail⟩

end

/-- The body of a function whose code is known. -/
theorem body_beside {object : FunctionObject} (own : object.decl.Stands known) (arguments : List Value) :
    Beside known veiled (body ctx object arguments)
      (Direct.body { ctx with call := other } object arguments) := by
  obtain ⟨⟨name, kind, params, code⟩, closure, receiver⟩ := object
  obtain ⟨role, path, sites, alike⟩ := own
  obtain ⟨inParams, inBody⟩ := List.forall_mem_append.mp sites
  cases alike with
  | mk _ parameters bodies =>
    have plain : ∀ param ∈ params, param.name.Plain := fun param member =>
      (List.forall₂_same.mp parameters param member).2.2
    have clear : ∀ param ∈ params, ctx.bindings.Clear veiled param.id := by
      intro param member
      obtain ⟨inside, found⟩ := Sites.mem_params role path params [] param member
      exact veils.clear (inParams _ found) rfl (plain param member)
    have inner : Beside known veiled
        (do
          modify fun m : Machine => { m with
            environment := bindParams ctx.bindings m.environment params arguments }
          stmts ctx code)
        (do
          modify fun m : Machine => { m with
            environment := bindParams ctx.bindings m.environment params arguments }
          Direct.stmts { ctx with call := other } code) := by
      refine Beside.bind (fun m n alike stands => .ok ?_) fun _ =>
        stmts_beside veils calls bodies _ inBody
      exact alike.moves_bindParams ctx.bindings params arguments stands clear
    refine ((inner.within closure).deeper).bind fun flow => ?_
    generalize FunctionObject.isInitializer ⟨.mk name kind params code, closure, receiver⟩ = isInitializer
    cases isInitializer <;> cases receiver <;> cases flow <;> exact .pure _

end

theorem call_beside {bindings : Bindings} (veils : Veils known bindings veiled) (maxDepth : Nat) :
    ∀ (bound : Nat) (id : FunctionId) (arguments : List Value),
      Beside known veiled (call bindings maxDepth bound id arguments)
        (Direct.call bindings maxDepth bound id arguments)
  | 0, _, _ => .throw _
  | bound + 1, id, arguments => by
    have veils' : Veils known (context bindings maxDepth bound).bindings veiled := veils
    refine .get_bind (fun _ _ => rfl) fun _ stands => ?_
    exact body_beside veils' (call_beside veils maxDepth bound) (stands id) arguments

/-- Whole programs end alike. -/
theorem program_beside {bindings : Bindings} (veils : Veils known bindings veiled) (maxDepth bound : Nat)
    {statements : List Stmt} (alike : Stmts.Like .plain statements statements)
    (sites : ∀ site ∈ Sites.program statements, known site) :
    Beside known veiled (program (context bindings maxDepth bound) statements)
      (Direct.program (Direct.context bindings maxDepth bound) statements) := by
  intro m n both stands
  have veils' : Veils known (context bindings maxDepth bound).bindings veiled := veils
  have ended := stmts_beside veils' (call_beside veils maxDepth bound) alike [] sites m n both stands
  change Ended known veiled m (stmts _ statements m)
    (Direct.stmts (Direct.context bindings maxDepth bound) statements n) at ended
  unfold program Direct.program
  generalize stmts _ statements m = one at ended ⊢
  generalize Direct.stmts _ statements n = two at ended ⊢
  cases ended with
  | ok moves => exact (beside_flush _ _ moves.alike moves.stands).since moves.saves
  | @error stop after last moves =>
    cases stop with
    | exhausted => exact .error moves
    | error e =>
      have flushed := (beside_flush after last moves.alike moves.stands).since moves.saves
      dsimp only
      generalize flush after = one at flushed ⊢
      generalize flush last = two at flushed ⊢
      cases flushed with
      | ok moves => exact .error moves
      | error moves => exact .error moves

end Exec
end Lox
