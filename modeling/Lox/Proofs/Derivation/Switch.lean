import Lox.Proofs.Derivation.Clauses

set_option autoImplicit false

/-! A switch, accepted exactly as it is derived. Its arms are found from the first to the last, and
compared in that order, while the comparisons are built from the last to the first. -/

namespace Lox.Grammar

namespace Rules

/-- What follows the subject of a switch, which is node `id`. -/
def switchArms (rules : Rules) (keyword : Token) (subject : Expr) (id : NodeId) : Rule Stmt := do
  let _ ← Rule.expect (.symbol .leftBrace) .armsOpen
  let found ← Rule.iterate rules.armRound rules.bound ⟨[], none⟩
  let _ ← Rule.expect (.symbol .rightBrace) .armsClose
  let chain ← armChain (hiddenName id keyword) keyword found.arms found.default
  return .block (.var id (hiddenName id keyword) (some subject) :: chain.toList)

theorem switchStatement_eq (rules : Rules) (keyword : Token) :
    rules.switchStatement keyword = (do
      let _ ← Rule.expect (.symbol .leftParen) .switchOpen
      let subject ← rules.expression .lowest
      let _ ← Rule.expect (.symbol .rightParen) .switchClose
      Rule.fresh >>= rules.switchArms keyword subject) :=
  rfl

instance switchArms_grows (rules : Rules) [rules.Growing] (keyword : Token) (subject : Expr)
    (id : NodeId) : Grows (rules.switchArms keyword subject id) := by
  unfold switchArms
  infer_instance

theorem isDefaultPattern_iff (pattern : Expr) :
    isDefaultPattern pattern = true ↔ Derives.IsDefault pattern := by
  constructor
  · intro isDefault
    unfold isDefaultPattern at isDefault
    split at isDefault
    · rename_i id name
      exact ⟨id, name, rfl, beq_iff_eq.mp isDefault⟩
    · cases isDefault
  · rintro ⟨id, name, rfl, only⟩
    exact beq_iff_eq.mpr only

end Rules

namespace Derives

variable {stop : Token} {p q : Place}

/-- The last arm is compared first when the comparisons are built from the inside. -/
theorem armsImage_concat (subject : NodeId) (keyword : Token) (pattern : Expr) (action : Stmt)
    (default : Option Stmt) : ∀ (firstId : NodeId) (arms : List (Expr × Stmt)),
    armsImage subject keyword firstId (arms ++ [(pattern, action)]) default =
      armsImage subject keyword (firstId + 1) arms (some (.branch
        (Rules.armTest firstId (Rules.hiddenName subject keyword) keyword pattern) action default))
  | firstId, [] => rfl
  | firstId, (first, chosen) :: rest => by
      have numbered : firstId + (rest ++ [(pattern, action)]).length =
          firstId + 1 + rest.length := by
        rw [List.length_append, List.length_singleton]
        exact (Nat.add_assoc firstId rest.length 1).symm.trans (Nat.add_right_comm ..)
      rw [List.cons_append, armsImage, armsImage, numbered,
        armsImage_concat subject keyword pattern action default firstId rest]

/-- One more arm. A second default arm is none. -/
def ArmStep (stop : Token) (found : Rules.Arms) (p : Place) (next : Rules.Arms) (q : Place) : Prop :=
  ∃ pattern r arrow s action, Expression stop p pattern r ∧
    Passes (.symbol .equalGreater) r arrow s ∧ Statement stop s action q ∧
      ((¬IsDefault pattern ∧ next = { found with arms := (pattern, action) :: found.arms }) ∨
        (IsDefault pattern ∧ found.default = none ∧ next = { found with default := some action }))

theorem arms_of_steps {found last : Rules.Arms}
    (steps : Accepts.Steps (ArmStep stop) found p last q) :
    ∃ arms default, Arms stop p arms default q ∧ last.arms = arms.reverse ++ found.arms ∧
      ((found.default = none ∧ last.default = default) ∨
        (default = none ∧ last.default = found.default)) := by
  induction steps with
  | refl found p => exact ⟨[], none, .nil p, rfl, .inr ⟨rfl, rfl⟩⟩
  | head first _ ih =>
      obtain ⟨pattern, r, arrow, s, action, read, separator, chosen, kind⟩ := first
      obtain ⟨arms, default, rest, same, defaults⟩ := ih
      rcases kind with ⟨ordinary, rfl⟩ | ⟨isDefault, missing, rfl⟩
      · refine ⟨_, default, .arm read ordinary separator chosen rest, ?_, defaults⟩
        rw [same, List.reverse_cons, List.append_assoc]
        rfl
      · rcases defaults with ⟨impossible, -⟩ | ⟨rfl, given⟩
        · cases impossible
        · exact ⟨arms, _, .default read isDefault separator chosen rest, same,
            .inl ⟨missing, given⟩⟩

theorem steps_of_arms : ∀ {p q : Place} {arms : List (Expr × Stmt)} {default : Option Stmt},
    Arms stop p arms default q → ∀ found : Rules.Arms, (found.default = none ∨ default = none) →
      Accepts.Steps (ArmStep stop) found p
        ⟨arms.reverse ++ found.arms, default.or found.default⟩ q
  | _, _, _, _, .nil p, found, _ => .refl found p
  | _, _, _, _, @Arms.arm _ _ _ _ _ _ pattern arrow action arms default read ordinary separator
      chosen rest, found, single => by
      rw [List.reverse_cons, List.append_assoc]
      exact .head ⟨pattern, _, arrow, _, action, read, separator, chosen, .inl ⟨ordinary, rfl⟩⟩
        (steps_of_arms rest { found with arms := (pattern, action) :: found.arms } single)
  | _, _, _, _, @Arms.default _ _ _ _ _ _ pattern arrow action arms read isDefault separator
      chosen rest, found, single => by
      have missing : found.default = none := by
        rcases single with missing | impossible
        · exact missing
        · cases impossible
      exact .head
        ⟨pattern, _, arrow, _, action, read, separator, chosen, .inr ⟨isDefault, missing, rfl⟩⟩
        (steps_of_arms rest { found with default := some action } (.inr rfl))

end Derives

namespace Accepts

open Derives

variable {stop : Token} {p q : Place}

theorem armChain_iff (subject : NodeId) (keyword : Token) :
    ∀ (arms : List (Expr × Stmt)) {chain result : Option Stmt} {p : Place},
      Accepts stop (Rules.armChain (Rules.hiddenName subject keyword) keyword arms chain) p result q ↔
        result = armsImage subject keyword p.nextId arms.reverse chain ∧
          q = ⟨p.tokens, p.nextId + arms.length⟩
  | [], chain, result, p => pure_iff
  | (pattern, action) :: rest, chain, result, p => by
      have numbered : p.nextId + (rest.length + 1) = p.nextId + 1 + rest.length :=
        (Nat.add_assoc p.nextId rest.length 1).symm.trans (Nat.add_right_comm ..)
      rw [Rules.armChain, List.reverse_cons, armsImage_concat, List.length_cons, numbered]
      constructor
      · intro done
        obtain ⟨id, r, node, done⟩ := bind_iff.mp done
        obtain ⟨rfl, rfl⟩ := fresh_iff.mp node
        exact (armChain_iff subject keyword rest).mp done
      · intro built
        exact bind_iff.mpr ⟨_, _, fresh_iff.mpr ⟨rfl, rfl⟩,
          (armChain_iff subject keyword rest).mpr built⟩

end Accepts

namespace Rules.Speaks

open Derives Accepts

variable {rules : Rules} {stop : Token} {deep : Nat} (speaks : rules.Speaks stop deep)
  {p q r : Place} {s : Stmt} {keyword : Token}
include speaks

theorem armRound_iff (fits : 3 * p.tokens.length + 1 ≤ deep) (found : Rules.Arms)
    (outcome : Rule.Round Rules.Arms Rules.Arms) (q : Place) :
    Accepts stop (rules.armRound found) p outcome q ↔
      ((p.Sees (.symbol .rightBrace) ∨ p.tokens = []) ∧ outcome = .finish found ∧ q = p) ∨
        ∃ next, outcome = .again next ∧ ArmStep stop found p next q := by
  have := speaks.growing
  unfold armRound
  rw [closed_iff]
  constructor
  · rintro (⟨closed, done⟩ | ⟨-, done⟩)
    · exact .inl ⟨closed, pure_iff.mp done⟩
    · obtain ⟨start, p', peeked, done⟩ := bind_iff.mp done
      injection peeked with _ cursors
      cases Place.cursor_inj stop cursors
      obtain ⟨pattern, p1, read, done⟩ := bind_iff.mp done
      obtain ⟨arrow, p2, separator, done⟩ := bind_iff.mp done
      obtain ⟨action, p3, chosen, done⟩ := bind_iff.mp done
      have read := (speaks.expression (by omega)).mp read
      have separator := expect_iff.mp separator
      have one := read.fewer speaks.ends
      have two := separator.length
      have chosen := (speaks.statement (by omega)).mp chosen
      by_cases isDefault : isDefaultPattern pattern = true
      · rw [if_pos isDefault] at done
        by_cases double : found.default.isSome = true
        · rw [if_pos double] at done
          exact absurd done failAt_iff
        · rw [if_neg double] at done
          obtain ⟨rfl, rfl⟩ := pure_iff.mp done
          exact .inr ⟨_, rfl, pattern, _, arrow, _, action, read, separator, chosen,
            .inr ⟨(isDefaultPattern_iff pattern).mp isDefault, by simpa using double, rfl⟩⟩
      · rw [if_neg isDefault] at done
        obtain ⟨rfl, rfl⟩ := pure_iff.mp done
        exact .inr ⟨_, rfl, pattern, _, arrow, _, action, read, separator, chosen,
          .inl ⟨(isDefaultPattern_iff pattern).not.mp isDefault, rfl⟩⟩
  · rintro (⟨closed, rfl, rfl⟩ | ⟨next, rfl, pattern, p1, arrow, p2, action, read, separator,
      chosen, kind⟩)
    · exact .inl ⟨closed, pure_iff.mpr ⟨rfl, rfl⟩⟩
    · have one := read.fewer speaks.ends
      have two := separator.length
      have some : p.tokens ≠ [] := List.length_pos_iff.mp (Nat.zero_lt_of_lt one)
      refine .inr ⟨⟨read.not_sees rfl, some⟩, bind_iff.mpr ⟨_, p, rfl, bind_iff.mpr ⟨_, _,
        (speaks.expression (by omega)).mpr read, bind_iff.mpr ⟨_, _, expect_iff.mpr separator,
          bind_iff.mpr ⟨_, _, (speaks.statement (by omega)).mpr chosen, ?_⟩⟩⟩⟩⟩
      rcases kind with ⟨ordinary, rfl⟩ | ⟨isDefault, missing, rfl⟩
      · rw [if_neg ((isDefaultPattern_iff pattern).not.mpr ordinary)]
        exact pure_iff.mpr ⟨rfl, rfl⟩
      · rw [if_pos ((isDefaultPattern_iff pattern).mpr isDefault), missing]
        exact pure_iff.mpr ⟨rfl, rfl⟩

theorem armStep_shorter (fits : 3 * p.tokens.length + 1 ≤ deep) {found next : Rules.Arms}
    (step : ArmStep stop found p next q) :
    q.tokens.length < p.tokens.length ∧ 3 * q.tokens.length + 1 ≤ deep := by
  obtain ⟨pattern, r, arrow, s, action, read, separator, chosen, -⟩ := step
  have one := read.fewer speaks.ends
  have two := separator.length
  have three := speaks.statement_fewer (by omega) chosen
  omega

theorem switchStatement_iff (fits : 3 * p.tokens.length ≤ deep) :
    Accepts stop (rules.switchStatement keyword) p s r ↔
      ∃ left q subject t right u id v leftBrace w arms default x rightBrace y,
        s = switchImage id keyword subject y.nextId arms default ∧
          r = ⟨y.tokens, y.nextId + arms.length⟩ ∧ Passes (.symbol .leftParen) p left q ∧
            Derives.Expression stop q subject t ∧ Passes (.symbol .rightParen) t right u ∧
              Numbers u id v ∧ Passes (.symbol .leftBrace) v leftBrace w ∧
                Derives.Arms stop w arms default x ∧
                  Passes (.symbol .rightBrace) x rightBrace y := by
  have := speaks.growing
  have bound := speaks.abreast.bound
  have repeated {w x : Place} {found : Rules.Arms} (fits : 3 * w.tokens.length + 1 ≤ deep) :
      Accepts stop (Rule.iterate rules.armRound rules.bound ⟨[], none⟩) w found x ↔
        ∃ last, Steps (ArmStep stop) ⟨[], none⟩ w last x ∧
          (x.Sees (.symbol .rightBrace) ∨ x.tokens = []) ∧ found = last :=
    steps_iff
      (fun found p outcome q (fits : 3 * p.tokens.length + 1 ≤ deep) =>
        speaks.armRound_iff fits found outcome q)
      (fun _ _ _ _ fits step => speaks.armStep_shorter fits step) fits
      (show w.tokens.length < rules.bound by omega)
  rw [switchStatement_eq]
  constructor
  · intro done
    obtain ⟨left, q, opens, done⟩ := bind_iff.mp done
    obtain ⟨subject, t, read, done⟩ := bind_iff.mp done
    obtain ⟨right, u, closes, done⟩ := bind_iff.mp done
    obtain ⟨id, v, node, done⟩ := bind_iff.mp done
    obtain ⟨leftBrace, w, begins, done⟩ := bind_iff.mp done
    obtain ⟨found, x, rounds, done⟩ := bind_iff.mp done
    obtain ⟨rightBrace, y, ends, done⟩ := bind_iff.mp done
    obtain ⟨chain, z, built, done⟩ := bind_iff.mp done
    obtain ⟨rfl, rfl⟩ := pure_iff.mp done
    have opens := expect_iff.mp opens
    have closes := expect_iff.mp closes
    have node := fresh_iff.mp node
    have begins := expect_iff.mp begins
    have one := opens.length
    have read := (speaks.expression (by omega)).mp read
    have two := read.fewer speaks.ends
    have three := closes.length
    have four := congrArg List.length node.tokens
    have five := begins.length
    obtain ⟨last, steps, -, rfl⟩ := (repeated (by omega)).mp rounds
    obtain ⟨arms, default, derived, same, defaults⟩ := arms_of_steps steps
    have given : found.default = default := by
      rcases defaults with ⟨-, given⟩ | ⟨rfl, given⟩ <;> exact given
    rw [same, given, List.append_nil] at built
    obtain ⟨rfl, rfl⟩ := (armChain_iff id keyword _).mp built
    rw [List.reverse_reverse, List.length_reverse]
    exact ⟨left, q, subject, t, right, u, id, v, leftBrace, w, arms, default, x, rightBrace, y, rfl,
      rfl, opens, read, closes, node, begins, derived, expect_iff.mp ends⟩
  · rintro ⟨left, q, subject, t, right, u, id, v, leftBrace, w, arms, default, x, rightBrace, y,
      rfl, rfl, opens, read, closes, node, begins, derived, ends⟩
    have one := opens.length
    have two := read.fewer speaks.ends
    have three := closes.length
    have four := congrArg List.length node.tokens
    have five := begins.length
    have steps := steps_of_arms derived ⟨[], none⟩ (.inl rfl)
    rw [List.append_nil, Option.or_none] at steps
    have built : Accepts stop
        (armChain (hiddenName id keyword) keyword arms.reverse default) y
        (armsImage id keyword y.nextId arms default) ⟨y.tokens, y.nextId + arms.length⟩ := by
      rw [armChain_iff, List.reverse_reverse, List.length_reverse]
      exact ⟨rfl, rfl⟩
    exact bind_iff.mpr ⟨_, _, expect_iff.mpr opens, bind_iff.mpr ⟨_, _,
      (speaks.expression (by omega)).mpr read, bind_iff.mpr ⟨_, _, expect_iff.mpr closes,
        bind_iff.mpr ⟨_, _, fresh_iff.mpr node, bind_iff.mpr ⟨_, _, expect_iff.mpr begins,
          bind_iff.mpr ⟨_, _, (repeated (by omega)).mpr ⟨_, steps, .inl ends.sees, rfl⟩,
            bind_iff.mpr ⟨_, _, expect_iff.mpr ends, bind_iff.mpr ⟨_, _, built,
              pure_iff.mpr ⟨rfl, rfl⟩⟩⟩⟩⟩⟩⟩⟩⟩

end Rules.Speaks
end Lox.Grammar
