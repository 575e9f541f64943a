import Lox.Proofs.Derivation.Append
import Lox.Proofs.Scope.Fault
import Lox.Proofs.Token.Lines
import Lox.Proofs.Twin.Settle

set_option autoImplicit false

/-! Sources that are read without an error. Whether one is depends neither on where it stands nor on what
has been read before; and sources that are read one after another are read together, as one program after
the other, if they stand line after line in one text. -/

namespace Lox

open Text (plainNewlines)
open Token (Clean anywhere body words ofText)

namespace Token

/-- A source is read without an error as a row of tokens, wherever it stands. -/
structure Spells (source : List Char) (row : List Token) : Prop where
  clean : ∀ base, Clean (body base (plainNewlines source))
  twins : ∀ base, List.Forall₂ (Token.Twin anywhere) row (words base (plainNewlines source))

theorem Clean.elsewhere {base : Nat} {text : List Char} (clean : Clean (body base text)) (other : Nat) :
    Clean (body other text) := by
  have items := body_twin base other text
  generalize body base text = one at items clean
  generalize body other text = two at items
  induction items with
  | nil => exact nofun
  | @cons x y _ _ same _ ih =>
      have parts := List.forall_mem_cons.mp clean
      refine List.forall_mem_cons.mpr ⟨?_, ih parts.2⟩
      cases same with
      | token => rfl
      | error => cases parts.1

namespace Spells

variable {first second : List Char} {row other : List Token}

theorem of_clean {base : Nat} (clean : Clean (body base (plainNewlines first))) :
    Spells first (words base (plainNewlines first)) :=
  ⟨fun other => clean.elsewhere other, fun other => words_twin base other _⟩

theorem nil : Spells [] [] := by
  constructor
  · intro base
    rw [show plainNewlines [] = [] from rfl, body_nil]
    exact nofun
  · intro base
    rw [words, show plainNewlines [] = [] from rfl, body_nil]
    exact .nil

theorem single (spells : Spells first row) : ∀ token ∈ row, token.isEnd = false := by
  intro token member
  have twins := spells.twins 0
  obtain ⟨index, small, rfl⟩ := List.getElem_of_mem member
  have also : index < (words 0 (plainNewlines first)).length := twins.length_eq ▸ small
  have twin := twins.get small also
  have same : row[index].isEnd = (words 0 (plainNewlines first))[index].isEnd := by
    unfold Token.isEnd
    rw [show row[index].kind = _ from twin.kind]
    rfl
  exact same.trans (isEnd_of_words _ (List.getElem_mem also))

/-- Two sources with a newline between them. -/
theorem line (one : Spells first row) (two : Spells second other) :
    Spells (first ++ '\n' :: second) (row ++ other) := by
  constructor
  · intro base
    obtain ⟨later, both⟩ := body_line (one.clean base) second
    rw [both]
    exact List.forall_mem_append.mpr ⟨one.clean base, two.clean later⟩
  · intro base
    obtain ⟨later, both⟩ := body_line (one.clean base) second
    have joined := List.rel_append (one.twins base) (two.twins later)
    unfold words at joined ⊢
    rw [both, List.filterMap_append]
    exact joined

/-- The tokens of a source, with an end of the input that stands anywhere. -/
theorem ofText_twin (spells : Spells first row) (stop base : Nat) :
    List.Forall₂ (Token.Twin anywhere) (row ++ [atEnd stop]) (ofText base (plainNewlines first)) := by
  rw [ofText_eq_words]
  refine List.rel_append (spells.twins base) (.cons ⟨rfl, rfl, trivial, ?_⟩ .nil)
  exact plain_of_hash (show "" = String.ofList [] from rfl) nofun

end Spells
end Token

namespace Grammar

/-- What one row of tokens says without an error, a row of twins says. -/
theorem parse_again {positions : Nat → Nat → Prop} {tokens others : List Token}
    {first nextId : NodeId} {program : List Stmt}
    (twins : List.Forall₂ (Token.Twin positions) tokens others)
    (ends : ∃ token ∈ tokens, token.isEnd = true) (second : NodeId)
    (read : parse tokens first = ⟨program, [], none, nextId⟩) :
    ∃ program' nextId', parse others second = ⟨program', [], none, nextId'⟩ ∧
      Stmts.Like (Reading.again positions first second).likeness program program' ∧
        (Reading.again positions first second).counted nextId nextId' := by
  have alike := (Cursor.like_ofTokens (r := Reading.again positions first second) twins ends).parse
  change ParsesAlike _ (parse tokens first) (parse others second) at alike
  rw [read] at alike
  obtain ⟨statements, recorded, fatal, nextIds⟩ := alike
  generalize parse others second = other at statements recorded fatal nextIds
  obtain ⟨program', faults, stopped, nextId'⟩ := other
  cases recorded
  cases fatal
  exact ⟨program', nextId', rfl, statements, nextIds⟩

end Grammar

/-- What has been given out so far: positions, node numbers, and slots. -/
structure Ledger where
  base : Nat
  nextNode : NodeId
  bindings : Bindings

namespace Ledger

def new : Ledger := ⟨0, 0, Bindings.empty⟩

/-- No node has a slot that has not been given out. -/
def Below (l : Ledger) : Prop :=
  l.bindings.Below l.nextNode

theorem below_new : new.Below :=
  fun _ _ => rfl

/-- What two ledgers go by when they record the same source. -/
def allotment (l other : Ledger) : Allotment where
  reading := Reading.again anywhere l.nextNode other.nextNode
  base := l.bindings.nextSlot
  other := other.bindings.nextSlot
  plain _ _ twin := twin.plain

/-- A source passes the scanner, the parser and the resolver. -/
structure Reads (l : Ledger) (source : String) (program : List Stmt) (after : Ledger) : Prop where
  clean : Clean (body l.base (plainNewlines source.toList))
  parses : Grammar.parse (ofText l.base (plainNewlines source.toList)) l.nextNode =
    ⟨program, [], none, after.nextNode⟩
  resolves : resolve l.bindings program = (none, after.bindings)
  base : after.base = l.base + Text.byteLength (plainNewlines source.toList) + 1

namespace Reads

variable {l other after : Ledger} {source : String} {program : List Stmt}

theorem fit (reads : l.Reads source program after) :
    Grammar.Fit.stmts l.nextNode after.nextNode program := by
  have fit := Grammar.parse_fit
    (Token.ofText_spelled l.base (plainNewlines source.toList)) l.nextNode
  rw [reads.parses] at fit
  exact fit

/-- Reading a source binds no nodes but its own. -/
theorem kept (reads : l.Reads source program after) (below : l.Below) {id : NodeId}
    (outside : id < l.nextNode ∨ after.nextNode ≤ id) :
    after.bindings.slot? id = l.bindings.slot? id := by
  have kept := resolve_outside reads.fit below outside
  rw [reads.resolves] at kept
  exact kept

theorem below (reads : l.Reads source program after) (below : l.Below) : after.Below := by
  intro id beyond
  rw [reads.kept below (.inr beyond)]
  exact below id (Nat.le_trans reads.fit.up beyond)

end Reads
end Ledger

/-- A program that is alike to one that is accepted is accepted. -/
theorem resolve_again {a : Allotment} {one two after : Bindings} {program program' : List Stmt}
    (fresh : Bindings.Twin a 0 one two) (alike : Stmts.Like a.reading.likeness program program')
    (accepted : resolve one program = (none, after)) :
    ∃ n after', resolve two program' = (none, after') ∧ Bindings.Twin a n after after' ∧
      Stmts.Like (a.settled after) program program' := by
  have outcomes := Resolve.resolve_outcomes alike fresh
  rw [accepted] at outcomes
  generalize resolve two program' = other at outcomes
  cases outcomes with
  | accepted le twin settled => exact ⟨_, _, rfl, twin, settled⟩

namespace Ledger

variable {l other after last : Ledger} {source : String} {program : List Stmt}

/-- What passes at one place, after some sources, passes at any other place, after any other sources. -/
theorem Reads.elsewhere (reads : l.Reads source program after) (below : l.Below)
    (below' : other.Below) : ∃ program' after', other.Reads source program' after' := by
  have spells := Token.Spells.of_clean reads.clean
  have parses := reads.parses
  rw [Token.ofText_eq_words] at parses
  obtain ⟨program', nextId', parses, alike, -⟩ :=
    Grammar.parse_again (spells.ofText_twin _ other.base)
      ⟨_, List.mem_append_right _ List.mem_cons_self, rfl⟩ other.nextNode parses
  obtain ⟨n, bindings, resolves, -⟩ := resolve_again (a := l.allotment other)
    (.fresh rfl rfl below below') alike reads.resolves
  exact ⟨program', ⟨_, nextId', bindings⟩, spells.clean other.base, parses, resolves, rfl⟩

/-- Sources that pass one after another, each with its program. -/
inductive ReadsAll : Ledger → List String → List (List Stmt) → Ledger → Prop
  | nil (l : Ledger) : ReadsAll l [] [] l
  | cons {l next last : Ledger} {source : String} {rest : List String} {program : List Stmt}
      {programs : List (List Stmt)} (head : l.Reads source program next)
      (tail : ReadsAll next rest programs last) :
      ReadsAll l (source :: rest) (program :: programs) last

/-- A source that passes on its own. -/
def Passes (source : String) : Prop :=
  ∃ program after, new.Reads source program after

theorem readsAll_of_passes {sources : List String} (below : l.Below)
    (pass : ∀ source ∈ sources, Passes source) : ∃ programs last, l.ReadsAll sources programs last := by
  induction sources generalizing l with
  | nil => exact ⟨[], l, .nil l⟩
  | cons source rest ih =>
      obtain ⟨first, others⟩ := List.forall_mem_cons.mp pass
      obtain ⟨_, _, alone⟩ := first
      obtain ⟨program, next, head⟩ := alone.elsewhere below_new below
      obtain ⟨programs, last, tail⟩ := ih (head.below below) others
      exact ⟨program :: programs, last, .cons head tail⟩

namespace ReadsAll

variable {sources : List String} {programs : List (List Stmt)}

theorem le (reads : l.ReadsAll sources programs last) : l.nextNode ≤ last.nextNode := by
  induction reads with
  | nil => exact Nat.le_refl _
  | cons head _ ih => exact Nat.le_trans head.fit.up ih

/-- Nodes keep the slots that they have got. -/
theorem kept (reads : l.ReadsAll sources programs last) (below : l.Below) {id : NodeId}
    (small : id < l.nextNode) : last.bindings.slot? id = l.bindings.slot? id := by
  induction reads with
  | nil => rfl
  | cons head _ ih =>
      rw [ih (head.below below) (Nat.lt_of_lt_of_le small head.fit.up)]
      exact head.kept below (.inl small)

/-- The tokens of all sources in one row say all programs. -/
theorem row (reads : l.ReadsAll sources programs last) :
    ∃ row stop, Token.Spells ("\n".intercalate sources).toList row ∧
      Grammar.parse (row ++ [Token.atEnd stop]) l.nextNode =
        ⟨programs.flatten, [], none, last.nextNode⟩ := by
  induction reads with
  | nil l =>
      refine ⟨[], 0, .nil, ?_⟩
      exact (Grammar.parse_eq_iff (List.forall_mem_nil _) rfl).mpr (.nil _)
  | @cons l next last source rest program programs head tail ih =>
      have own := Token.Spells.of_clean head.clean
      have parses := head.parses
      rw [Token.ofText_eq_words] at parses
      cases tail with
      | nil =>
          refine ⟨words l.base (plainNewlines source.toList),
            l.base + Text.byteLength (plainNewlines source.toList), ?_, ?_⟩
          · rw [String.intercalate_singleton]
            exact own
          · rw [List.flatten_singleton]
            exact parses
      | cons second others =>
          obtain ⟨row, stop, spells, later⟩ := ih
          refine ⟨words l.base (plainNewlines source.toList) ++ row, stop, ?_, ?_⟩
          · rw [String.intercalate_cons_cons, String.toList_append, String.toList_append,
              List.append_assoc]
            exact own.line spells
          · exact Grammar.parse_append own.single spells.single rfl rfl parses later

end ReadsAll
end Ledger

namespace Resolve

/-- Outside all scopes, statements leave the place as it is. -/
theorem stmts_top {ss : List Stmt} {place : Place} {before after : Bindings}
    (regular : Regular.stmts ss) (done : stmts Place.top ss before = .ok place after) :
    place = Place.top := by
  induction ss generalizing before with
  | nil =>
      cases done
      rfl
  | cons s rest ih =>
      obtain ⟨next, middle, first, later⟩ := Outcome.ok_of_bind done
      have verdict := stmt_verdict s Place.top [] before Place.stands_top Path.plain_nil regular.1
      rw [first] at verdict
      have same : next = Place.top := by
        obtain ⟨scopes, role, inClass, inField⟩ := next
        cases verdict.2 with
        | outside isNone notClass notField noScopes =>
            cases isNone
            cases notClass
            cases notField
            cases noScopes
            rfl
      rw [same] at later
      exact ih regular.2 later

theorem stmts_append (ss rest : List Stmt) : ∀ place : Place,
    stmts place (ss ++ rest) = stmts place ss >>= fun place => stmts place rest := by
  induction ss with
  | nil => exact fun place => rfl
  | cons s ss ih =>
      intro place
      rw [List.cons_append, stmts, stmts, bind_assoc]
      exact congrArg (stmt place s >>= ·) (funext fun next => ih next)

end Resolve

theorem resolve_append {before middle : Bindings} {program : List Stmt} (regular : Regular.stmts program)
    (accepted : resolve before program = (none, middle)) (rest : List Stmt) :
    resolve before (program ++ rest) = resolve middle rest := by
  unfold resolve at accepted ⊢
  rw [Resolve.stmts_append]
  cases done : Resolve.stmts Place.top program before with
  | error e after =>
      rw [done] at accepted
      cases accepted
  | ok place after =>
      rw [done] at accepted
      cases accepted
      rw [Outcome.bind_of_ok done, Resolve.stmts_top regular done]

namespace Ledger.ReadsAll

variable {l last : Ledger} {sources : List String} {programs : List (List Stmt)}

theorem resolves (reads : l.ReadsAll sources programs last) :
    resolve l.bindings programs.flatten = (none, last.bindings) := by
  induction reads with
  | nil => rfl
  | cons head _ ih =>
      rw [List.flatten_cons, resolve_append head.fit.regular head.resolves]
      exact ih

/-- The sources pass together if they stand line after line. Their program is alike to their programs one
after the other, and nodes have the same slots. -/
theorem lines (reads : l.ReadsAll sources programs last) (below : l.Below) :
    ∃ program after n, l.Reads ("\n".intercalate sources) program after ∧
      Bindings.Twin (l.allotment l) n last.bindings after.bindings ∧
        Stmts.Like ((l.allotment l).settled last.bindings) programs.flatten program := by
  obtain ⟨row, stop, spells, read⟩ := reads.row
  obtain ⟨program, nextId, parses, alike, -⟩ := Grammar.parse_again (spells.ofText_twin stop l.base)
    ⟨_, List.mem_append_right _ List.mem_cons_self, rfl⟩ l.nextNode read
  obtain ⟨n, bindings, resolves, twin, settled⟩ := resolve_again (a := l.allotment l)
    (.fresh rfl rfl below below) alike reads.resolves
  exact ⟨program, ⟨_, nextId, bindings⟩, n, ⟨spells.clean l.base, parses, resolves, rfl⟩, twin,
    settled⟩

end Ledger.ReadsAll
end Lox
