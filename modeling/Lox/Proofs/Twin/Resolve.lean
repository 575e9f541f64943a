import Lox.Proofs.Outcome
import Lox.Proofs.Twin.Scopes

set_option autoImplicit false

/-! Two programs that are alike are resolved alike: both are accepted, with corresponding slots for
corresponding nodes, or both are refused for the same fault at corresponding tokens. By induction on the
likeness; a switch is met as a whole, since its hidden variable is found in the scope that it opens. -/

namespace Lox.Resolve

open Grammar.Rules (hiddenName armTest)

variable {α β γ δ : Type} {a : Allotment} {n : Nat} {before before' : Bindings}

/-- Both end well, or both with the same fault at corresponding tokens. -/
inductive Meets (a : Allotment) (n : Nat) (before : Bindings)
    (good : Nat → Bindings → α → β → Prop) :
    EStateM.Result ResolutionError Bindings α → EStateM.Result ResolutionError Bindings β → Prop
  | ok {x : α} {y : β} {m : Nat} {after after' : Bindings} (le : n ≤ m)
      (twin : Bindings.Twin a m after after') (kept : before.Kept after)
      (isGood : good m after x y) : Meets a n before good (.ok x after) (.ok y after')
  | error {e f : ResolutionError} {m : Nat} {after after' : Bindings} (le : n ≤ m)
      (twin : Bindings.Twin a m after after') (faults : e.fault = f.fault)
      (tokens : a.reading.pair e.token f.token) :
      Meets a n before good (.error e after) (.error f after')

/-- Two parts of a resolution, begun with corresponding bindings. -/
def Twins (a : Allotment) (n : Nat) (before before' : Bindings) (part : Resolve α)
    (other : Resolve β) (good : Nat → Bindings → α → β → Prop) : Prop :=
  Meets a n before good (part before) (other before')

namespace Twins

variable {part : Resolve α} {other : Resolve β} {good : Nat → Bindings → α → β → Prop}
  {next : Nat → Bindings → γ → δ → Prop}

theorem pure (twin : Bindings.Twin a n before before') {x : α} {y : β}
    (isGood : good n before x y) :
    Twins a n before before' (Pure.pure x) (Pure.pure y) good :=
  .ok (Nat.le_refl n) twin (fun _ => id) isGood

theorem fail (twin : Bindings.Twin a n before before') (fault : ResolutionFault) {t u : Token}
    (pair : a.reading.pair t u) :
    Twins a n before before' (Resolve.fail fault t) (Resolve.fail fault u) good :=
  .error (Nat.le_refl n) twin rfl pair

theorem bind {second : α → Resolve γ} {otherSecond : β → Resolve δ}
    (one : Twins a n before before' part other good)
    (two : ∀ x y m after after', part before = .ok x after → other before' = .ok y after' →
      n ≤ m → Bindings.Twin a m after after' → before.Kept after → good m after x y →
        Twins a m after after' (second x) (otherSecond y)
          fun last final x y => before.Kept final → next last final x y) :
    Twins a n before before' (part >>= second) (other >>= otherSecond) next := by
  unfold Twins at one
  cases done : part before with
  | error e after =>
      cases also : other before' with
      | error f after' =>
          rw [done, also] at one
          unfold Twins
          rw [Outcome.bind_of_error done, Outcome.bind_of_error also]
          cases one with
          | error le twin faults tokens => exact .error le twin faults tokens
      | ok y after' =>
          rw [done, also] at one
          cases one
  | ok x after =>
      cases also : other before' with
      | error f after' =>
          rw [done, also] at one
          cases one
      | ok y after' =>
          rw [done, also] at one
          unfold Twins
          rw [Outcome.bind_of_ok done, Outcome.bind_of_ok also]
          cases one with
          | ok le twin kept isGood =>
              have later := two x y _ after after' done also le twin kept isGood
              unfold Twins at later
              generalize second x after = one at later ⊢
              generalize otherSecond y after' = two at later ⊢
              cases later with
              | ok le' twin' kept' isGood' =>
                  exact .ok (Nat.le_trans le le') twin' (kept.trans kept')
                    (isGood' (kept.trans kept'))
              | error le' twin' faults tokens =>
                  exact .error (Nat.le_trans le le') twin' faults tokens

theorem imp {better : Nat → Bindings → α → β → Prop} (twins : Twins a n before before' part other good)
    (improves : ∀ m after x y, n ≤ m → before.Kept after → good m after x y → better m after x y) :
    Twins a n before before' part other better := by
  unfold Twins at twins ⊢
  generalize part before = one at twins ⊢
  generalize other before' = two at twins ⊢
  cases twins with
  | ok le twin kept isGood => exact .ok le twin kept (improves _ _ _ _ le kept isGood)
  | error le twin faults tokens => exact .error le twin faults tokens

end Twins

section

variable {place place' : Place} {id id' : NodeId} {name name' : Token}

theorem allocate_twins (twin : Bindings.Twin a n before before')
    (counted : a.reading.counted id id') :
    Twins a n before before' (allocate id) (allocate id')
      fun m after slot slot' => a.paired m slot slot' ∧ (after.slot? id).isSome = true := by
  obtain ⟨allocated, slots⟩ := twin.allocate
  refine .ok (Nat.le_succ n) (allocated.bind counted slots) ?_ ⟨slots, ?_⟩
  · exact Bindings.kept_bind _ _ _
  · rw [Bindings.slot?_bind, if_pos rfl]
    rfl

theorem declare_twins (twin : Bindings.Twin a n before before') (places : Place.Twin a n place place')
    (ready : Bool) (counted : a.reading.counted id id') (pair : a.reading.pair name name') :
    Twins a n before before' (declare place ready id name) (declare place' ready id' name')
      fun m _ => Place.Twin a m := by
  unfold declare
  obtain ⟨scopes, role, inClass, inField⟩ := place
  obtain ⟨scopes', role', inClass', inField'⟩ := place'
  obtain ⟨pairs, roles, classes, fields⟩ := places
  cases pairs with
  | nil => exact .pure twin ⟨.nil, roles, classes, fields⟩
  | @cons scope scope' outer outer' head rest =>
      dsimp only
      rw [head.any pair]
      split
      · exact .fail twin _ pair
      · refine (allocate_twins twin counted).bind fun slot slot' m _ _ _ _ le twin _ slots => ?_
        refine .pure twin fun _ => ⟨.cons (.cons ⟨slots.1, rfl, .inl ?_⟩ (head.le le)) ?_, roles,
          classes, fields⟩
        · exact (a.reading.same _ _ pair).2
        · exact rest.imp fun _ _ same => same.le le

theorem reference_twins (twin : Bindings.Twin a n before before')
    (places : Place.Twin a n place place') (counted : a.reading.counted id id')
    (pair : a.reading.pair name name') :
    Twins a n before before' (reference place id name) (reference place' id' name')
      fun _ _ _ _ => True := by
  have found := places.find? pair
  unfold reference
  generalize place.find? name.lexeme = one at found ⊢
  generalize place'.find? name'.lexeme = two at found ⊢
  cases found with
  | none => exact .pure twin trivial
  | @some d e same =>
      dsimp only
      rw [same.ready]
      cases e.ready with
      | true =>
          exact .ok (Nat.le_refl n) (twin.bind counted same.slot) (Bindings.kept_bind _ _ _) trivial
      | false => exact .fail twin _ pair

theorem declareParams_twins {params params' : List Param}
    (parameters : List.Forall₂ (Param.Like a.reading.likeness) params params') :
    ∀ {n : Nat} {before before' : Bindings} {place place' : Place},
      Bindings.Twin a n before before' → Place.Twin a n place place' →
        Twins a n before before' (declareParams place params) (declareParams place' params')
          fun m _ => Place.Twin a m := by
  induction parameters with
  | nil => exact fun twin places => .pure twin places
  | cons head _ ih =>
      intro n before before' place place' twin places
      refine (declare_twins twin places true head.1 head.2).bind
        fun inside inside' m _ _ _ _ _ twin _ places => ?_
      exact (ih twin places).imp fun _ _ _ _ _ _ isGood _ => isGood

end

/-- A statement that declares nothing leaves its place as it is. -/
theorem stmt_place : ∀ (s : Stmt) {place inside : Place} {before after : Bindings},
    s.declared = [] → stmt place s before = .ok inside after → inside = place
  | .expression value, place, _, _, _, _, done => by
      obtain ⟨_, _, _, last⟩ := Outcome.ok_of_bind done
      cases last
      rfl
  | .print value, place, _, _, _, _, done => by
      obtain ⟨_, _, _, last⟩ := Outcome.ok_of_bind done
      cases last
      rfl
  | .block body, place, _, _, _, _, done => by
      obtain ⟨_, _, _, last⟩ := Outcome.ok_of_bind done
      cases last
      rfl
  | .branch condition thenBranch none, place, _, _, _, bare, done => by
      obtain ⟨_, _, _, done⟩ := Outcome.ok_of_bind done
      obtain ⟨middle, _, chosen, last⟩ := Outcome.ok_of_bind done
      cases last
      exact stmt_place thenBranch bare chosen
  | .branch condition thenBranch (some elseBranch), place, _, _, _, bare, done => by
      obtain ⟨inElse, inThen⟩ := List.append_eq_nil_iff.mp bare
      obtain ⟨_, _, _, done⟩ := Outcome.ok_of_bind done
      obtain ⟨middle, _, chosen, last⟩ := Outcome.ok_of_bind done
      exact (stmt_place elseBranch inElse last).trans (stmt_place thenBranch inThen chosen)
  | .loop condition body, place, _, _, _, bare, done => by
      obtain ⟨_, _, _, last⟩ := Outcome.ok_of_bind done
      exact stmt_place body bare last
  | .ret keyword none, place, _, _, _, _, done => by
      unfold stmt at done
      cases role : place.role with
      | none =>
          rw [role] at done
          cases done
      | some kind =>
          rw [role] at done
          cases done
          rfl
  | .ret keyword (some value), place, _, _, _, _, done => by
      unfold stmt at done
      cases role : place.role with
      | none =>
          rw [role] at done
          cases done
      | some kind =>
          rw [role] at done
          cases kind with
          | initializer => cases done
          | _ =>
              obtain ⟨_, _, _, last⟩ := Outcome.ok_of_bind done
              cases last
              rfl
  | .var _ _ _, _, _, _, _, bare, _ => nomatch bare
  | .function _ _ _, _, _, _, _, bare, _ => nomatch bare
  | .class _ _ _ _ _, _, _, _, _, bare, _ => nomatch bare

theorem repeatedMember_twin {names names' : List Token}
    (pairs : List.Forall₂ a.reading.pair names names') :
    ∀ seen : List String, Option.Rel a.reading.pair (repeatedMember? seen names)
      (repeatedMember? seen names') := by
  induction pairs with
  | nil => exact fun _ => .none
  | cons head _ ih =>
      intro seen
      unfold repeatedMember?
      rw [(a.reading.same _ _ head).2]
      split
      · exact .some head
      · exact ih _

theorem fieldNames_twin {fields fields' : List FieldDecl} : Fields.Like a.reading.likeness fields fields' →
    List.Forall₂ a.reading.pair (fields.map (·.name)) (fields'.map (·.name))
  | .nil => .nil
  | .cons names tail => .cons names (fieldNames_twin tail)
  | .consInitial names _ tail => .cons names (fieldNames_twin tail)

theorem methodNames_twin {methods methods' : List FunctionDecl} :
    Functions.Like a.reading.likeness methods methods' →
      List.Forall₂ a.reading.pair (methods.filterMap (·.name)) (methods'.filterMap (·.name))
  | .nil => .nil
  | .cons (.mk names _ _) tail => by
      have rest := methodNames_twin tail
      cases names with
      | none => exact rest
      | some same => exact .cons same rest

theorem memberNames_twin {fields fields' : List FieldDecl} {methods methods' : List FunctionDecl}
    (fieldDecls : Fields.Like a.reading.likeness fields fields')
    (methodDecls : Functions.Like a.reading.likeness methods methods') :
    List.Forall₂ a.reading.pair (memberNames fields methods) (memberNames fields' methods') :=
  List.rel_append (fieldNames_twin fieldDecls) (methodNames_twin methodDecls)

/-- The comparisons of a switch are resolved where its hidden variable has been declared. -/
def chain (place : Place) : Option Stmt → Resolve Place
  | none => return place
  | some s => stmt place s

theorem stmts_chain (place : Place) (arms : Option Stmt) :
    stmts place arms.toList = chain place arms := by
  cases arms with
  | none => rfl
  | some s => exact bind_pure (stmt place s)

theorem chain_arm (place : Place) (id : NodeId) (hidden keyword : Token) (pattern : Expr)
    (action : Stmt) (rest : Option Stmt) :
    chain place (some (.branch (armTest id hidden keyword pattern) action rest)) = (do
      (do
        reference place id hidden
        expr place pattern)
      let place ← stmt place action
      chain place rest) := by
  cases rest <;> rfl

theorem switch_eq (place : Place) (id : NodeId) (keyword : Token) (subject : Expr)
    (arms : Option Stmt) :
    stmt place (.block (.var id (hiddenName id keyword) (some subject) :: arms.toList)) = (do
      let hidden ← (do
        let inside ← declare (place.enter []) false id (hiddenName id keyword)
        expr inside subject
        return inside.markReady (hiddenName id keyword).lexeme)
      let _ ← chain hidden arms
      return place) := by
  have same : (fun hidden => chain hidden arms) = fun hidden => stmts hidden arms.toList :=
    funext fun hidden => (stmts_chain hidden arms).symm
  change _ = (_ >>= fun hidden => (fun hidden => chain hidden arms) hidden >>= fun _ => pure place)
  rw [same, ← bind_assoc]
  rfl

/-- The innermost scope holds a hidden variable and nothing else. -/
structure Hides (a : Allotment) (n : Nat) (hidden hidden' : Token) (place place' : Place) : Prop where
  twin : Place.Twin a n place place'
  scopes : ∃ slot slot' outer outer', a.paired n slot slot' ∧
    place.scopes = [⟨hidden.lexeme, slot, true⟩] :: outer ∧
      place'.scopes = [⟨hidden'.lexeme, slot', true⟩] :: outer'

theorem Hides.le {m : Nat} {hidden hidden' : Token} {place place' : Place}
    (hides : Hides a n hidden hidden' place place') (le : n ≤ m) :
    Hides a m hidden hidden' place place' := by
  obtain ⟨twin, slot, slot', outer, outer', slots, scopes, scopes'⟩ := hides
  exact ⟨twin.le le, slot, slot', outer, outer', slots.le le, scopes, scopes'⟩

theorem Hides.reference {hidden hidden' : Token} {place place' : Place}
    (hides : Hides a n hidden hidden' place place') (twin : Bindings.Twin a n before before')
    {id id' : NodeId} (counted : a.reading.counted id id') :
    Twins a n before before' (Resolve.reference place id hidden)
      (Resolve.reference place' id' hidden') fun _ after _ _ => (after.slot? id).isSome = true := by
  obtain ⟨-, slot, slot', outer, outer', slots, scopes, scopes'⟩ := hides
  have found : place.find? hidden.lexeme = some ⟨hidden.lexeme, slot, true⟩ := by
    unfold Place.find?
    simp [scopes]
  have found' : place'.find? hidden'.lexeme = some ⟨hidden'.lexeme, slot', true⟩ := by
    unfold Place.find?
    simp [scopes']
  unfold Resolve.reference
  rw [found, found']
  refine .ok (Nat.le_refl n) (twin.bind counted slots) (Bindings.kept_bind _ _ _) ?_
  rw [Bindings.slot?_bind, if_pos rfl]
  rfl

/-- A hidden variable is declared in a scope of its own. -/
theorem declare_hides {place place' : Place} (twin : Bindings.Twin a n before before')
    (places : Place.Twin a n place place') {id id' : NodeId} (counted : a.reading.counted id id')
    (keyword keyword' : Token) :
    Twins a n before before' (declare (place.enter []) false id (hiddenName id keyword))
      (declare (place'.enter []) false id' (hiddenName id' keyword')) fun m after inside inside' =>
        Place.Twin a m inside inside' ∧ (after.slot? id).isSome = true ∧
          Hides a m (hiddenName id keyword) (hiddenName id' keyword')
            (inside.markReady (hiddenName id keyword).lexeme)
            (inside'.markReady (hiddenName id' keyword').lexeme) := by
  refine (allocate_twins twin counted).bind fun slot slot' m _ _ _ _ le twin _ slots => ?_
  have declared (ready : Bool) : Declared.Twin a m ⟨(hiddenName id keyword).lexeme, slot, ready⟩
      ⟨(hiddenName id' keyword').lexeme, slot', ready⟩ :=
    ⟨slots.1, rfl, .inr ⟨id, id', keyword, keyword', rfl, rfl⟩⟩
  have inside (ready : Bool) := (places.le le).enter (.cons (declared ready) .nil)
  refine .pure twin fun _ => ⟨inside false, slots.2, ?_, slot, slot', place.scopes, place'.scopes,
    slots.1, ?_, ?_⟩
  · have marked := inside true
    simp only [Place.markReady, Place.enter, List.map_cons, beq_self_eq_true, if_true, List.map_nil]
    exact marked
  · simp [Place.markReady, Place.enter]
  · simp [Place.markReady, Place.enter]

/-- A switch opens a scope for its hidden variable, which is finished before the first arm. -/
theorem subject_twins {place place' : Place} {subject subject' : Expr}
    (twin : Bindings.Twin a n before before') (places : Place.Twin a n place place') {id id' : NodeId}
    (counted : a.reading.counted id id') (keyword keyword' : Token)
    (subjects : ∀ {m : Nat} {after after' : Bindings} {inside inside' : Place},
      Bindings.Twin a m after after' → Place.Twin a m inside inside' →
        Twins a m after after' (expr inside subject) (expr inside' subject')
          fun _ last _ _ => Expr.Like (a.settled last) subject subject') :
    Twins a n before before'
      (do
        let inside ← declare (place.enter []) false id (hiddenName id keyword)
        expr inside subject
        return inside.markReady (hiddenName id keyword).lexeme)
      (do
        let inside ← declare (place'.enter []) false id' (hiddenName id' keyword')
        expr inside subject'
        return inside.markReady (hiddenName id' keyword').lexeme)
      fun m after hidden hidden' =>
        Hides a m (hiddenName id keyword) (hiddenName id' keyword') hidden hidden' ∧
          (after.slot? id).isSome = true ∧ Expr.Like (a.settled after) subject subject' := by
  refine (declare_hides twin places counted keyword keyword').bind
    fun inside inside' m after after' _ _ le twin _ declared => ?_
  refine (subjects twin declared.1).bind fun _ _ k last last' _ _ le twin kept subject => ?_
  exact .pure twin fun _ _ => ⟨declared.2.2.le le, kept _ declared.2.1, subject⟩

end Lox.Resolve
