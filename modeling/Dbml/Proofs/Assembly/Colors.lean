import Dbml.Proofs.Assembly.Groups

/-!
# The colours of groups and headings

Of several settings with one key the last one counts, also when it has no value. Each group with a
name has the colour that its heading gives it this way, else one that is chosen for its name, and no
later step changes it. Main statements: `heading?_colors` and `groupFaces_ofSegments`.
-/

namespace Dbml

/-! ## The colours of a heading -/

namespace Source

variable {s : Source}

/-- The colour that a heading gives under the key: that of the last setting with the key, and none
when this setting has no value. -/
def lastColor? (s : Source) (header : Header) (key : String) : Option String :=
  ((header.settings.elim [] s.settings).filterMap (·.value? key)).getLast?.bind s.colorText

theorem color_applyTableSetting (given : TableSettings) (setting : Setting) :
    (s.applyTableSetting given setting).value.headerColor =
        (setting.value? "headercolor").elim given.headerColor s.colorText ∧
      (s.applyTableSetting given setting).value.color =
        (setting.value? "color").elim given.color s.colorText := by
  cases setting with
  | pair key value position =>
    unfold applyTableSetting
    dsimp only
    split
    · exact ⟨rfl, rfl⟩
    · exact ⟨rfl, rfl⟩
    · exact ⟨rfl, rfl⟩
    next noHeaderColor noColor _ =>
      rw [Setting.value?, Setting.value?, if_neg noHeaderColor, if_neg noColor]
      exact ⟨rfl, rfl⟩
  | flag words position => exact ⟨rfl, rfl⟩
  | invalid position => exact ⟨rfl, rfl⟩

/-- The colours of a table's heading. -/
theorem heading?_colors {block : Block} {heading : TableHeading}
    (head : s.heading? block = some heading) :
    heading.table.headerColor = s.lastColor? block.header "headercolor" ∧
      heading.table.color = s.lastColor? block.header "color" := by
  obtain ⟨schema, name, -, rfl⟩ := heading?_eq_some head
  exact ⟨field_foldlM_heading (fun given x => (color_applyTableSetting given x).1) _ rfl,
    field_foldlM_heading (fun given x => (color_applyTableSetting given x).2) _ rfl⟩

theorem color_applyGroupSetting (given : Assembly.GroupSettings) (setting : Setting) :
    (Assembly.applyGroupSetting s given setting).value.color =
      (setting.value? "color").elim given.color s.colorText := by
  unfold Assembly.applyGroupSetting
  split
  · rfl
  · rfl
  next noColor _ =>
    rw [Setting.value?_of_other noColor]
    rfl

/-! ## The groups of a document -/

/-- The heading and the name of a group with a name. -/
def namedGroup? : Segment → Option (Header × String)
  | .block block _ =>
    if block.kind = .tableGroup then block.header.name?.map fun name => (block.header, name)
    else none
  | .line _ => none

/-- What is seen of a group: its name and its colour. -/
def groupFace (s : Source) (named : Header × String) : String × String :=
  (named.2, (s.lastColor? named.1 "color").getD (Color.ofName named.2))

theorem namedGroup?_eq_map (x : Segment) :
    namedGroup? x = (x.namedBlock? .tableGroup).map fun found =>
      (found.block.header, found.name) := by
  cases x with
  | line line => rfl
  | block block children =>
    by_cases kind : block.kind = .tableGroup
    · rw [namedGroup?, if_pos kind, Segment.namedBlock?_of_kind kind, Option.map_map]
      rfl
    · rw [namedGroup?, if_neg kind, Segment.namedBlock?_of_ne kind]
      rfl

end Source

namespace Assembly

variable {s : Source}

theorem face_blockGroup (found : NamedBlock) :
    ((blockGroup s found).name, (blockGroup s found).color) =
      s.groupFace (found.block.header, found.name) := by
  let given :=
    ((found.block.header.settings.elim [] s.settings).foldlM (applyGroupSetting s) {}).value
  have color : given.color = s.lastColor? found.block.header "color" :=
    Source.field_foldlM_heading Source.color_applyGroupSetting found.block.header rfl
  show (found.name, Color.resolve [given.color] none found.name) = _
  rw [color, Source.groupFace]
  cases s.lastColor? found.block.header "color" <;> rfl

/-- The names and the colours of the groups of a document, in the order of their blocks. -/
theorem groupFaces_ofSegments (s : Source) (segments : List Segment) :
    (ofSegments s segments).value.groups.map (fun g => (g.name, g.color)) =
      (segments.filterMap Source.namedGroup?).map s.groupFace := by
  have bare := congrArg (List.map fun g : TableGroup => (g.name, g.color))
    (memberless_ofSegments s segments)
  rw [List.map_map, List.map_map] at bare
  have headings : segments.filterMap Source.namedGroup? =
      (segments.filterMap (·.namedBlock? .tableGroup)).map fun found =>
        (found.block.header, found.name) := by
    rw [List.map_filterMap]
    exact List.filterMap_congr fun x _ => Source.namedGroup?_eq_map x
  rw [headings, List.map_map]
  exact bare.trans (List.map_congr_left fun found _ => face_blockGroup found)

end Assembly

end Dbml
