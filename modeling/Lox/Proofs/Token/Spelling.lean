import Lox.Proofs.Syntax.Regular
import Lox.Proofs.Token.Lexeme

set_option autoImplicit false

/-! How tokens are spelled. Reading a text never yields a name that is spelled like the receiver, and
always spells the receiver the same way. -/

namespace Lox.Token

/-- Names and the receiver can be told apart by their spelling. -/
structure Spelled (token : Token) : Prop where
  name : token.kind = .identifier → token.lexeme ≠ thisName
  receiver : token.kind = .keyword .thisWord → token.lexeme = thisName

theorem spelled_of_other {token : Token} (notName : token.kind ≠ .identifier)
    (notReceiver : token.kind ≠ .keyword .thisWord) : token.Spelled :=
  ⟨fun same => absurd same notName, fun same => absurd same notReceiver⟩

theorem Lexeme.spelled {lexeme : List Char} {kind : Kind} (valid : Lexeme lexeme kind) (offset : Nat) :
    Spelled ⟨kind, String.ofList lexeme, offset⟩ := by
  cases valid with
  | keyword k =>
    refine ⟨nofun, ?_⟩
    rintro ⟨⟩
    exact String.ofList_toList
  | name start parts other =>
    refine ⟨fun _ same => other .thisWord ?_, nofun⟩
    exact (congrArg String.toList same).symm.trans String.toList_ofList
  | _ => exact spelled_of_other nofun nofun

def AllSpelled (items : List Item) : Prop :=
  ∀ token, .token token ∈ items → token.Spelled

theorem scanFrom_spelled (bound : Nat) (items : List Item) (start : Nat) (text : List Char)
    (spelled : AllSpelled items) : AllSpelled (scanFrom bound items start text) := by
  have finish (items : List Item) (start : Nat) (spelled : AllSpelled items) :
      AllSpelled (.token (atEnd start) :: items).reverse := by
    intro token member
    rcases List.mem_cons.mp (List.mem_reverse.mp member) with last | earlier
    · cases last
      exact spelled_of_other nofun nofun
    · exact spelled token earlier
  induction bound generalizing items start text with
  | zero => cases text <;> exact finish items start spelled
  | succ bound ih =>
      cases text with
      | nil => exact finish items start spelled
      | cons c after =>
          rw [scanFrom]
          split
          · next item found =>
              refine ih _ _ _ fun token member => ?_
              rcases List.mem_cons.mp member with same | earlier
              · subst same
                cases piece : (munch c after).piece with
                | token kind =>
                    rw [piece] at found
                    cases found
                    exact (lexeme_of_munch piece).spelled _
                | gap =>
                    rw [piece] at found
                    cases found
                | fault fault =>
                    rw [piece] at found
                    cases found
              · exact spelled token earlier
          · exact ih _ _ _ spelled

def ofText (base : Nat) (text : List Char) : List Token :=
  (scan base text).filterMap Item.token?

theorem ofText_spelled (base : Nat) (text : List Char) :
    ∀ token ∈ ofText base text, token.Spelled := by
  intro token member
  obtain ⟨item, inItems, isToken⟩ := List.mem_filterMap.mp member
  have spelled := scanFrom_spelled text.length [] base text fun _ impossible => by cases impossible
  cases item with
  | token other =>
      cases isToken
      exact spelled token inItems
  | error e => cases isToken

end Lox.Token
