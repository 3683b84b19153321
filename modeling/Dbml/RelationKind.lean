/-!
# Kinds of relationship

A relationship is written with an operator that tells how many rows stand on either side.
-/

namespace Dbml

/-- How many rows of either side a relationship joins. -/
inductive RelationKind
  | manyToOne
  | oneToMany
  | oneToOne
  | manyToMany
  deriving DecidableEq, Repr, Inhabited

namespace RelationKind

def operator : RelationKind → String
  | .manyToOne => ">"
  | .oneToMany => "<"
  | .oneToOne => "-"
  | .manyToMany => "<>"

def all : List RelationKind :=
  [.manyToOne, .oneToMany, .oneToOne, .manyToMany]

def ofOperator? (operator : String) : Option RelationKind :=
  all.find? (·.operator == operator)

@[simp] theorem ofOperator?_operator (kind : RelationKind) :
    ofOperator? kind.operator = some kind := by
  cases kind <;> rfl

theorem ofOperator?_eq_some {operator : String} {kind : RelationKind}
    (h : ofOperator? operator = some kind) : kind.operator = operator := by
  simpa using List.find?_some h

end RelationKind

end Dbml
