import Lox.Proofs.Twin.Resolve

set_option autoImplicit false

/-! Whole programs that are alike, resolved side by side. -/

namespace Lox.Resolve

open Grammar.Rules (hiddenName armTest)

variable {a : Allotment}

mutual

theorem expr_twins : ∀ {e e' : Expr}, Expr.Like a.reading.likeness e e' →
    ∀ {n : Nat} {before before' : Bindings} {place place' : Place},
      Bindings.Twin a n before before' → Place.Twin a n place place' →
        Twins a n before before' (expr place e) (expr place' e')
          fun _ after _ _ => Expr.Like (a.settled after) e e'
  | _, _, .literal value, _, _, _, _, _, twin, _ => .pure twin (.literal value)
  | _, _, .unary operators rights, _, _, _, _, _, twin, places =>
      (expr_twins rights twin places).imp fun _ _ _ _ _ _ right => .unary operators right
  | _, _, .binary lefts operators rights, _, _, _, _, _, twin, places => by
      refine (expr_twins lefts twin places).bind fun _ _ m after after' _ _ le twin _ left => ?_
      exact (expr_twins rights twin (places.le le)).imp fun _ _ _ _ _ kept right _ =>
        .binary (left.mono (Allotment.settled_le kept)) operators right
  | _, _, .logical lefts operators rights, _, _, _, _, _, twin, places => by
      refine (expr_twins lefts twin places).bind fun _ _ m after after' _ _ le twin _ left => ?_
      exact (expr_twins rights twin (places.le le)).imp fun _ _ _ _ _ kept right _ =>
        .logical (left.mono (Allotment.settled_le kept)) operators right
  | _, _, .ternary conditions thens elses, _, _, _, _, _, twin, places => by
      refine (expr_twins conditions twin places).bind
        fun _ _ m after after' _ _ le twin _ condition => ?_
      have here := places.le le
      refine (expr_twins thens twin here).bind fun _ _ k last last' _ _ le twin kept chosen => ?_
      exact (expr_twins elses twin (here.le le)).imp fun _ _ _ _ _ more other later _ =>
        .ternary (condition.mono (Allotment.settled_le later))
          (chosen.mono (Allotment.settled_le more)) other
  | _, _, .grouping inners, _, _, _, _, _, twin, places =>
      (expr_twins inners twin places).imp fun _ _ _ _ _ _ inner => .grouping inner
  | _, _, .name names, _, _, _, _, _, twin, places =>
      (reference_twins twin places names.1 names.2).imp fun _ _ _ _ _ _ _ => .name names
  | _, _, .assign names values, _, _, _, _, _, twin, places => by
      refine (expr_twins values twin places).bind fun _ _ m after after' _ _ le twin _ value => ?_
      exact (reference_twins twin (places.le le) names.1 names.2).imp fun _ _ _ _ _ kept _ _ =>
        .assign names (value.mono (Allotment.settled_le kept))
  | _, _, .call callees parens values, _, _, _, _, _, twin, places => by
      refine (expr_twins callees twin places).bind fun _ _ m after after' _ _ le twin _ callee => ?_
      exact (exprs_twins values twin (places.le le)).imp fun _ _ _ _ _ kept arguments _ =>
        .call (callee.mono (Allotment.settled_le kept)) parens arguments
  | _, _, .function decls, _, _, _, _, _, twin, places =>
      (function_twins decls twin (places.withRole _)).imp fun _ _ _ _ _ _ decl => .function decl
  | _, _, .get objects names, _, _, _, _, _, twin, places =>
      (expr_twins objects twin places).imp fun _ _ _ _ _ _ object => .get object names
  | _, _, .set objects names values, _, _, _, _, _, twin, places => by
      refine (expr_twins values twin places).bind fun _ _ m after after' _ _ le twin _ value => ?_
      exact (expr_twins objects twin (places.le le)).imp fun _ _ _ _ _ kept object _ =>
        .set object names (value.mono (Allotment.settled_le kept))
  | _, _, .this names, _, _, _, place, place', twin, places => by
      unfold expr
      rw [places.inClass, places.inField]
      cases place'.inClass with
      | false => exact .fail twin _ names.2
      | true =>
          cases place'.inField with
          | true => exact .fail twin _ names.2
          | false =>
              exact (reference_twins twin places names.1 names.2).imp
                fun _ _ _ _ _ _ _ => .this names

theorem exprs_twins : ∀ {es es' : List Expr}, Exprs.Like a.reading.likeness es es' →
    ∀ {n : Nat} {before before' : Bindings} {place place' : Place},
      Bindings.Twin a n before before' → Place.Twin a n place place' →
        Twins a n before before' (exprs place es) (exprs place' es')
          fun _ after _ _ => Exprs.Like (a.settled after) es es'
  | _, _, .nil, _, _, _, _, _, twin, _ => .pure twin .nil
  | _, _, .cons head tail, _, _, _, _, _, twin, places => by
      refine (expr_twins head twin places).bind fun _ _ m after after' _ _ le twin _ first => ?_
      exact (exprs_twins tail twin (places.le le)).imp fun _ _ _ _ _ kept rest _ =>
        .cons (first.mono (Allotment.settled_le kept)) rest

theorem stmt_twins : ∀ {s s' : Stmt}, Stmt.Like a.reading.likeness s s' →
    ∀ {n : Nat} {before before' : Bindings} {place place' : Place},
      Bindings.Twin a n before before' → Place.Twin a n place place' →
        Twins a n before before' (stmt place s) (stmt place' s')
          fun m after inside inside' => Place.Twin a m inside inside' ∧
            Stmt.Like (a.settled after) s s'
  | _, _, .expression values, _, _, _, _, _, twin, places => by
      refine (expr_twins values twin places).bind fun _ _ m after after' _ _ le twin _ value => ?_
      exact .pure twin fun _ => ⟨places.le le, .expression value⟩
  | _, _, .print values, _, _, _, _, _, twin, places => by
      refine (expr_twins values twin places).bind fun _ _ m after after' _ _ le twin _ value => ?_
      exact .pure twin fun _ => ⟨places.le le, .print value⟩
  | _, _, .var names, _, _, _, _, _, twin, places => by
      refine (declare_twins twin places false names.1 names.2).bind
        fun inside inside' m after after' _ _ le twin _ insides => ?_
      exact .pure twin fun _ => ⟨insides.markReady names.2, .var names⟩
  | _, _, .varInitial names initials, _, _, _, _, _, twin, places => by
      refine (declare_twins twin places false names.1 names.2).bind
        fun inside inside' m after after' _ _ le twin _ insides => ?_
      refine (expr_twins initials twin insides).bind fun _ _ k last last' _ _ le twin _ initial => ?_
      exact .pure twin fun _ _ => ⟨(insides.le le).markReady names.2, .varInitial names initial⟩
  | _, _, .block bodies, _, _, _, _, _, twin, places => by
      refine (stmts_twins bodies twin (places.enter .nil)).bind
        fun _ _ m after after' _ _ le twin _ body => ?_
      exact .pure twin fun _ => ⟨places.le le, .block body⟩
  | _, _, .branch conditions thens, _, _, _, _, _, twin, places => by
      refine (expr_twins conditions twin places).bind
        fun _ _ m after after' _ _ le twin _ condition => ?_
      refine (stmt_twins thens twin (places.le le)).bind
        fun inside inside' k last last' _ _ le twin kept chosen => ?_
      exact .pure twin fun _ later =>
        ⟨chosen.1, .branch (condition.mono (Allotment.settled_le kept)) chosen.2⟩
  | _, _, .branchElse conditions thens elses, _, _, _, _, _, twin, places => by
      refine (expr_twins conditions twin places).bind
        fun _ _ m after after' _ _ le twin _ condition => ?_
      refine (stmt_twins thens twin (places.le le)).bind
        fun inside inside' k last last' _ _ le twin kept chosen => ?_
      exact (stmt_twins elses twin chosen.1).imp fun _ _ _ _ _ more other later _ =>
        ⟨other.1, .branchElse (condition.mono (Allotment.settled_le later))
          (chosen.2.mono (Allotment.settled_le more)) other.2⟩
  | _, _, .loop conditions bodies, _, _, _, _, _, twin, places => by
      refine (expr_twins conditions twin places).bind
        fun _ _ m after after' _ _ le twin _ condition => ?_
      exact (stmt_twins bodies twin (places.le le)).imp fun _ _ _ _ _ kept body _ =>
        ⟨body.1, .loop (condition.mono (Allotment.settled_le kept)) body.2⟩
  | _, _, .function names decls, _, _, _, _, _, twin, places => by
      refine (declare_twins twin places true names.1 names.2).bind
        fun inside inside' m after after' _ _ le twin _ insides => ?_
      refine (function_twins decls twin (insides.withRole _)).bind
        fun _ _ k last last' _ _ le twin _ decl => ?_
      exact .pure twin fun _ _ => ⟨insides.le le, .function names decl⟩
  | _, _, .ret keywords, _, _, _, place, place', twin, places => by
      unfold stmt
      rw [places.role]
      cases place'.role with
      | none => exact .fail twin _ keywords
      | some kind => exact .pure twin ⟨places, .ret keywords⟩
  | _, _, .retValue keywords values, _, _, _, place, place', twin, places => by
      unfold stmt
      rw [places.role]
      cases place'.role with
      | none => exact .fail twin _ keywords
      | some kind =>
          cases kind with
          | initializer => exact .fail twin _ keywords
          | _ =>
              refine (expr_twins values twin places).bind
                fun _ _ m after after' _ _ le twin _ value => ?_
              exact .pure twin fun _ => ⟨places.le le, .retValue keywords value⟩
  | _, _, .classDecl names tokens receivers fieldDecls methodDecls, _, _, _, place, place', twin,
      places => by
      refine (declare_twins twin places true names.1 names.2).bind
        fun inside inside' m after after' _ _ le twin _ insides => ?_
      have repeated := repeatedMember_twin (memberNames_twin fieldDecls methodDecls) []
      generalize repeatedMember? [] _ = one at repeated ⊢
      generalize repeatedMember? [] _ = two at repeated ⊢
      cases repeated with
      | some pair => exact .fail twin _ pair
      | none =>
          refine (allocate_twins twin receivers).bind
            fun slot slot' k last last' _ _ le twin _ slots => ?_
          have own : Declared.Twin a k ⟨"this", slot, true⟩ ⟨"this", slot', true⟩ :=
            ⟨slots.1, rfl, .inl rfl⟩
          have entered := (insides.le le).enter (.cons own .nil)
          refine (fields_twins fieldDecls twin (entered.inMembers true)).bind
            fun _ _ j final final' _ _ le' twin _ fields => ?_
          refine (methods_twins methodDecls twin ((entered.le le').inMembers false)).bind
            fun _ _ i end' end'' _ _ le'' twin more methods => ?_
          exact .pure twin fun _ _ _ _ => ⟨((insides.le le).le le').le le'',
            .classDecl names tokens receivers (fields.mono (Allotment.settled_le more)) methods⟩
  | _, _, .switch ids keywords subjects chains, _, _, _, _, _, twin, places => by
      rw [switch_eq, switch_eq]
      refine (subject_twins twin places ids _ _ (expr_twins subjects)).bind
        fun hidden hidden' m after after' _ _ le twin _ opened => ?_
      refine (chain_twins chains twin opened.1).bind
        fun _ _ k last last' _ _ le' twin kept arms => ?_
      exact .pure twin fun _ _ => ⟨(places.le le).le le', .switch ⟨ids, kept _ opened.2.1⟩ keywords
        (opened.2.2.mono (Allotment.settled_le kept)) arms⟩

theorem stmts_twins : ∀ {ss ss' : List Stmt}, Stmts.Like a.reading.likeness ss ss' →
    ∀ {n : Nat} {before before' : Bindings} {place place' : Place},
      Bindings.Twin a n before before' → Place.Twin a n place place' →
        Twins a n before before' (stmts place ss) (stmts place' ss')
          fun _ after _ _ => Stmts.Like (a.settled after) ss ss'
  | _, _, .nil, _, _, _, _, _, twin, _ => .pure twin .nil
  | _, _, .cons head tail, _, _, _, _, _, twin, places => by
      refine (stmt_twins head twin places).bind
        fun inside inside' m after after' _ _ le twin _ first => ?_
      exact (stmts_twins tail twin first.1).imp fun _ _ _ _ _ kept rest _ =>
        .cons (first.2.mono (Allotment.settled_le kept)) rest

theorem chain_twins : ∀ {hidden keyword hidden' keyword' : Token} {arms arms' : Option Stmt},
    Chain.Like a.reading.likeness hidden keyword hidden' keyword' arms arms' →
    ∀ {n : Nat} {before before' : Bindings} {place place' : Place},
      Bindings.Twin a n before before' → Hides a n hidden hidden' place place' →
        Twins a n before before' (chain place arms) (chain place' arms') fun _ after _ _ =>
          Chain.Like (a.settled after) hidden keyword hidden' keyword' arms arms'
  | _, _, _, _, _, _, .nil, _, _, _, _, _, twin, _ => .pure twin .nil
  | _, _, _, _, _, _, .default actions bare bare', _, _, _, _, _, twin, hides =>
      (stmt_twins actions twin hides.twin).imp fun _ _ _ _ _ _ action =>
        .default action.2 bare bare'
  | _, _, _, _, _, _, .arm ids patterns actions bare bare' rests, _, _, _, _, _, twin, hides => by
      rw [chain_arm, chain_arm]
      refine Twins.bind ((hides.reference twin ids).bind
        fun _ _ m after after' _ _ le twin _ named =>
          (expr_twins patterns twin (hides.twin.le le)).imp fun _ _ _ _ _ kept pattern _ =>
            And.intro (kept _ named) pattern) fun _ _ m after after' _ _ le twin _ tested => ?_
      refine (stmt_twins actions twin (hides.twin.le le)).bind
        fun inside inside' k last last' done done' le' twin kept action => ?_
      cases stmt_place _ bare done
      cases stmt_place _ bare' done'
      exact (chain_twins rests twin ((hides.le le).le le')).imp fun _ _ _ _ _ more rest later _ =>
        .arm ⟨ids, later _ tested.1⟩ (tested.2.mono (Allotment.settled_le later))
          (action.2.mono (Allotment.settled_le more)) bare bare' rest

theorem function_twins : ∀ {decl decl' : FunctionDecl},
    FunctionDecl.Like a.reading.likeness decl decl' →
    ∀ {n : Nat} {before before' : Bindings} {place place' : Place},
      Bindings.Twin a n before before' → Place.Twin a n place place' →
        Twins a n before before' (function place decl) (function place' decl')
          fun _ after _ _ => FunctionDecl.Like (a.settled after) decl decl'
  | _, _, .mk names parameters bodies, _, _, _, _, _, twin, places => by
      refine (declareParams_twins parameters twin (places.enter .nil)).bind
        fun inside inside' m after after' _ _ le twin _ insides => ?_
      refine (stmts_twins bodies twin insides).bind fun _ _ k last last' _ _ le twin _ body => ?_
      exact .pure twin fun _ _ => .mk names parameters body

theorem methods_twins : ∀ {decls decls' : List FunctionDecl},
    Functions.Like a.reading.likeness decls decls' →
    ∀ {n : Nat} {before before' : Bindings} {place place' : Place},
      Bindings.Twin a n before before' → Place.Twin a n place place' →
        Twins a n before before' (methods place decls) (methods place' decls')
          fun _ after _ _ => Functions.Like (a.settled after) decls decls'
  | _, _, .nil, _, _, _, _, _, twin, _ => .pure twin .nil
  | _, _, .cons head tail, _, _, _, _, _, twin, places => by
      unfold methods
      rw [head.kind_eq]
      refine (function_twins head twin (places.withRole _)).bind
        fun _ _ m after after' _ _ le twin _ first => ?_
      exact (methods_twins tail twin (places.le le)).imp fun _ _ _ _ _ kept rest _ =>
        .cons (first.mono (Allotment.settled_le kept)) rest

theorem fields_twins : ∀ {decls decls' : List FieldDecl}, Fields.Like a.reading.likeness decls decls' →
    ∀ {n : Nat} {before before' : Bindings} {place place' : Place},
      Bindings.Twin a n before before' → Place.Twin a n place place' →
        Twins a n before before' (fields place decls) (fields place' decls')
          fun _ after _ _ => Fields.Like (a.settled after) decls decls'
  | _, _, .nil, _, _, _, _, _, twin, _ => .pure twin .nil
  | _, _, .cons names tail, _, _, _, _, _, twin, places =>
      (fields_twins tail twin places).imp fun _ _ _ _ _ _ rest => .cons names rest
  | _, _, .consInitial names initials tail, _, _, _, _, _, twin, places => by
      refine (expr_twins initials twin places).bind
        fun _ _ m after after' _ _ le twin _ initial => ?_
      exact (fields_twins tail twin (places.le le)).imp fun _ _ _ _ _ kept rest _ =>
        .consInitial names (initial.mono (Allotment.settled_le kept)) rest

end

/-- How two programs that are alike are resolved, with `n` slots given out before. -/
inductive Outcomes (a : Allotment) (n : Nat) (program program' : List Stmt) :
    Option ResolutionError × Bindings → Option ResolutionError × Bindings → Prop
  | accepted {m : Nat} {after after' : Bindings} (le : n ≤ m) (twin : Bindings.Twin a m after after')
      (settled : Stmts.Like (a.settled after) program program') :
      Outcomes a n program program' (none, after) (none, after')
  | refused {e f : ResolutionError} {m : Nat} {after after' : Bindings} (le : n ≤ m)
      (twin : Bindings.Twin a m after after') (faults : e.fault = f.fault)
      (tokens : a.reading.pair e.token f.token) :
      Outcomes a n program program' (some e, after) (some f, after')

theorem resolve_outcomes {n : Nat} {before before' : Bindings} {program program' : List Stmt}
    (alike : Stmts.Like a.reading.likeness program program')
    (twin : Bindings.Twin a n before before') :
    Outcomes a n program program' (resolve before program) (resolve before' program') := by
  have top : Place.Twin a n Place.top Place.top := ⟨.nil, rfl, rfl, rfl⟩
  have twins := stmts_twins alike twin top
  unfold Twins at twins
  unfold resolve
  generalize stmts Place.top program before = one at twins ⊢
  generalize stmts Place.top program' before' = two at twins ⊢
  cases twins with
  | ok le twin kept settled => exact .accepted le twin settled
  | error le twin faults tokens => exact .refused le twin faults tokens

end Lox.Resolve
