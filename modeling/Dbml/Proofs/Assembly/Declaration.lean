import Dbml.Assembly

/-!
# Declarations

The tables that the blocks of a document declare, in the order an assembly discovers them: those
inside groups come first. Of the declarations of one key the first is kept.
-/

namespace Dbml

structure Declaration where
  table : DeclaredTable
  /-- Whether the block stands in a group without a name. -/
  ungrouped : Bool

namespace Declaration

def key (declaration : Declaration) : String :=
  declaration.table.key

/-- The declarations kept so far, with one more unless its key is taken. -/
def keep (kept : List Declaration) (declaration : Declaration) : List Declaration :=
  if kept.any (·.key == declaration.key) then kept else kept ++ [declaration]

/-- The first declarations of their keys. -/
def firsts (declarations : List Declaration) : List Declaration :=
  declarations.foldl keep []

@[simp] theorem firsts_nil : firsts [] = [] := rfl

theorem firsts_concat (declarations : List Declaration) (last : Declaration) :
    firsts (declarations ++ [last]) = keep (firsts declarations) last := by
  simp [firsts]

/-- Keeping the first ones does not change what is found first under a key. -/
theorem find?_firsts (declarations : List Declaration) (key : String) :
    (firsts declarations).find? (·.key == key) = declarations.find? (·.key == key) := by
  have step : ∀ (rest kept : List Declaration),
      (rest.foldl keep kept).find? (·.key == key) = (kept ++ rest).find? (·.key == key) := by
    intro rest
    induction rest with
    | nil => intro kept; simp
    | cons next rest ih =>
      intro kept
      rw [List.foldl_cons, ih, keep]
      by_cases taken : kept.any (·.key == next.key) = true
      · rw [if_pos taken]
        obtain ⟨earlier, listed, same⟩ := List.any_eq_true.1 taken
        -- When the next one has the key, an earlier one has it too and is found first.
        by_cases wanted : next.key = key
        · have found : (kept.find? (·.key == key)).isSome := by
            rw [List.find?_isSome]
            exact ⟨earlier, listed, by rw [← wanted]; exact same⟩
          obtain ⟨first, first_eq⟩ := Option.isSome_iff_exists.1 found
          simp [List.find?_append, first_eq]
        · simp [List.find?_append, wanted]
      · rw [if_neg taken, List.append_assoc, List.singleton_append]
  exact step declarations []

/-- No two of the declarations that are kept have the same key. -/
theorem pairwise_firsts (declarations : List Declaration) :
    (firsts declarations).Pairwise fun a b => a.key ≠ b.key := by
  have step : ∀ (rest kept : List Declaration), kept.Pairwise (fun a b => a.key ≠ b.key) →
      (rest.foldl keep kept).Pairwise fun a b => a.key ≠ b.key := by
    intro rest
    induction rest with
    | nil => intro kept apart; exact apart
    | cons next rest ih =>
      intro kept apart
      refine ih _ ?_
      rw [keep]
      split
      · exact apart
      · rename_i fresh
        refine List.pairwise_append.2 ⟨apart, List.pairwise_singleton _ _, ?_⟩
        intro earlier listed last same
        rw [List.mem_singleton] at same
        subst same
        exact fun equal => fresh (List.any_eq_true.2 ⟨earlier, listed, by simp [equal]⟩)
  exact step declarations [] .nil

/-- A kept declaration is what is found under its key. -/
theorem find?_of_mem_firsts {declarations : List Declaration} {declaration : Declaration}
    (kept : declaration ∈ firsts declarations) :
    declarations.find? (·.key == declaration.key) = some declaration := by
  have only : ∀ (list : List Declaration), list.Pairwise (fun a b => a.key ≠ b.key) →
      declaration ∈ list → list.find? (·.key == declaration.key) = some declaration := by
    intro list apart listed
    induction apart with
    | nil => cases listed
    | cons differs _ ih =>
      rcases List.mem_cons.1 listed with rfl | later
      · simp
      · rw [List.find?_cons_of_neg (by simpa using differs declaration later)]
        exact ih later
  rw [← find?_firsts]
  exact only _ (pairwise_firsts declarations) kept

end Declaration

namespace Source

/-- What a segment declares that is read as a table block. -/
def declares (s : Source) (ungrouped : Bool) : Segment → List Declaration
  | .block block children =>
    if block.kind = .table then
      (s.declaredTable block children).value.toList.map fun table => ⟨table, ungrouped⟩
    else []
  | .line _ => []

/-- What the body of a segment declares that is read as a group. -/
def groupDeclares (s : Source) : Segment → List Declaration
  | .block block children =>
    if block.kind = .tableGroup then children.flatMap (s.declares block.header.name?.isNone) else []
  | .line _ => []

/-- What the segments of a document declare, in the order of discovery. -/
def declarations (s : Source) (segments : List Segment) : List Declaration :=
  segments.flatMap s.groupDeclares ++ segments.flatMap (s.declares false)

end Source

end Dbml
