import Lox.Proofs.Session.Slots
import Lox.Proofs.Switch.Agreement

set_option autoImplicit false

/-! Hidden variables among the names of a session. They have slots of their own, and no name that stands in a
source ever means one of them: it means the same as if they were not there. -/

namespace Lox

open Grammar.Rules (hiddenName)

/-- The declaration of a hidden variable, which is named after its own node. -/
def Binder.isHidden (b : Binder) : Bool :=
  b.name == "switch#" ++ toString b.id

/-- The declaration that a name means if hidden variables are left out. -/
def Path.visible? (path : Path) (name : String) : Option NodeId :=
  (((path.binders.filter (!·.underway)).filter (!·.isHidden)).find? (·.name == name)).map (·.id)

theorem Path.visible?_of_plain (path : Path) {name : Token} (plain : name.Plain) :
    path.visible? name.lexeme = path.declaration? name.lexeme := by
  have same (b : Binder) :
      decide ((!b.isHidden) = true ∧ (b.name == name.lexeme) = true) = (b.name == name.lexeme) := by
    cases named : b.name == name.lexeme with
    | false => exact decide_eq_false fun both => Bool.false_ne_true both.2
    | true =>
      have visible : b.isHidden = false := by
        unfold Binder.isHidden
        rw [beq_iff_eq.mp named]
        exact beq_false_of_ne (plain b.id name)
      rw [visible]
      rfl
  unfold visible? declaration?
  rw [List.find?_filter]
  exact congrArg (fun test => (List.find? test _).map (·.id)) (funext same)

/-- A node has the slot of a declaration, if there is one, and no slot otherwise. -/
def Bindings.Follows (bindings : Bindings) (id : NodeId) : Option NodeId → Prop
  | none => bindings.slot? id = none
  | some declaration => ∃ slot, bindings.Binds declaration slot ∧ bindings.Binds id slot

theorem Bindings.Means.follows {bindings : Bindings} {path : Path} {name : Token} {id : NodeId}
    (means : bindings.Means path name.lexeme id) (plain : name.Plain) :
    bindings.Follows id (path.visible? name.lexeme) := by
  rw [path.visible?_of_plain plain]
  unfold Bindings.Means at means
  cases found : path.declaration? name.lexeme with
  | none =>
    rw [found] at means
    exact means
  | some declaration =>
    rw [found] at means
    exact means

namespace Session

/-- A site of a program that some run has accepted. -/
def Accepts (rounds : List Round) (site : Site) : Prop :=
  ∃ round ∈ rounds, round.ruling = .accepted ∧ site ∈ Sites.program round.program

/-- A slot of a hidden variable. -/
def Veiled (rounds : List Round) (bindings : Bindings) (slot : Slot) : Prop :=
  ∃ site id name, Accepts rounds site ∧ site.mention = .declaration id name ∧ ¬name.Plain ∧
    bindings.slot? id = some slot

variable {rounds : List Round} {s : Session} {round : Round}

theorem Accepts.later {site : Site} (accepts : Accepts rounds site) (round : Round) :
    Accepts (rounds ++ [round]) site := by
  obtain ⟨origin, member, accepted⟩ := accepts
  exact ⟨origin, List.mem_append_left _ member, accepted⟩

namespace Tables

theorem site_eq (tables : s.Tables rounds) {one two : Round} {site other : Site} {id : NodeId}
    (first : one ∈ rounds) (second : two ∈ rounds) (here : site ∈ Sites.program one.program)
    (there : other ∈ Sites.program two.program) (own : id ∈ site.nodes) (shared : id ∈ other.nodes) :
    site = other := by
  have nodup := tables.nodup
  simp only [← Sites.nodes_program] at nodup
  have flat : rounds.flatMap (fun round => Sites.nodes (Sites.program round.program)) =
      Sites.nodes (rounds.flatMap fun round => Sites.program round.program) :=
    List.flatMap_assoc.symm
  rw [flat] at nodup
  exact Sites.eq_of_mem_nodes nodup (List.mem_flatMap.mpr ⟨one, first, here⟩)
    (List.mem_flatMap.mpr ⟨two, second, there⟩) own shared

/-- What is declared under a plain name has no slot of a hidden variable. -/
theorem unveiled (tables : s.Tables rounds) (member : round ∈ rounds) {id : NodeId} {name : Token}
    (binds : Sites.Binds (Sites.program round.program) id name.lexeme) (plain : name.Plain) {slot : Slot}
    (known : s.bindings.slot? id = some slot) : ¬Veiled rounds s.bindings slot := by
  rintro ⟨site, hidden, other, ⟨origin, isRound, -, inside⟩, declares, notPlain, same⟩
  have binding : site.mention.binding? = some (hidden, other.lexeme) := by
    rw [declares]
    rfl
  have also : Sites.Binds (Sites.program origin.program) hidden other.lexeme := ⟨site, inside, binding⟩
  have equal : id = hidden := tables.apart id hidden slot ⟨round, member, binds.declares⟩
    ⟨origin, isRound, also.declares⟩ known same
  subst equal
  obtain ⟨site', here, own⟩ := binds
  have node {site : Site} {name : String} (binding : site.mention.binding? = some (id, name)) :
      id ∈ site.nodes :=
    Mention.mem_nodes.mpr (.inl (Mention.declared?_of_binding? binding))
  rw [tables.site_eq member isRound here inside (node own) (node binding), binding] at own
  have spelled : other.lexeme = name.lexeme := congrArg Prod.snd (Option.some.inj own)
  exact notPlain fun number keyword => spelled ▸ plain number keyword

theorem veils (tables : s.Tables rounds) :
    Veils (Accepts rounds) s.bindings (Veiled rounds s.bindings) where
  bound := by
    rintro site ⟨round, member, accepted, inside⟩
    exact tables.bound round member accepted site inside
  hidden site isKnown id name slot declares notPlain known :=
    ⟨site, id, name, isKnown, declares, notPlain, known⟩
  free := by
    rintro ⟨path, mention⟩ ⟨round, member, accepted, inside⟩ id name slot mentions plain known
    have bound := tables.bound round member accepted _ inside
    have meant (means : s.bindings.Means path name.lexeme id) : ¬Veiled rounds s.bindings slot := by
      obtain ⟨b, inSight, named, same⟩ := means.binder known
      have binds := Sites.program_sighted round.program _ inside b inSight
      exact tables.unveiled member (named ▸ binds) plain same
    cases mention with
    | declaration own token =>
      cases mentions
      exact tables.unveiled member ⟨_, inside, rfl⟩ plain known
    | reference own token =>
      cases mentions
      exact meant bound
    | this own keyword =>
      cases mentions
      exact meant bound
    | _ => cases mentions

end Tables
end Session
end Lox
