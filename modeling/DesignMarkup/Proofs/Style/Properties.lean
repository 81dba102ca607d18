/-
  DesignMarkup/Proofs/Style/Properties.lean
  =========================================
  **Which properties a node declares.**  Each group of declarations draws on properties of
  its own (`DrawnFrom`): where the node is and how large, how it lays out its children, its
  decoration and its font.  So no property is declared twice, the declarations are the
  groups one after the other (`toList_resolve`), and the value of a property is the one
  that its group gives it (`get?_resolve_place`, `get?_resolve_flex`).
-/
import DesignMarkup.Style.Resolve
import Mathlib.Data.List.Nodup

namespace DesignMarkup

/-! ### Setting different properties -/

namespace Declarations

theorem setIn_of_notMem {property : String} {pairs : List (String × String)}
    (h : property ∉ pairs.map Prod.fst) (value : String) :
    setIn property value pairs = pairs ++ [(property, value)] := by
  induction pairs with
  | nil => rfl
  | cons first rest ih =>
    rw [List.map_cons, List.mem_cons, not_or] at h
    rw [setIn, if_neg (Ne.symm h.1), ih h.2, List.cons_append]

theorem toList_setAll {pairs : List (String × String)} (hp : (pairs.map Prod.fst).Nodup)
    {d : Declarations} (hd : ∀ k ∈ pairs.map Prod.fst, k ∉ d.toList.map Prod.fst) :
    (d.setAll pairs).toList = d.toList ++ pairs := by
  induction pairs generalizing d with
  | nil => exact (List.append_nil d.toList).symm
  | cons first rest ih =>
    rw [List.map_cons, List.nodup_cons] at hp
    have hset : (d.set first.1 first.2).toList = d.toList ++ [first] :=
      setIn_of_notMem (hd first.1 List.mem_cons_self) first.2
    have hrest : ∀ k ∈ rest.map Prod.fst, k ∉ (d.set first.1 first.2).toList.map Prod.fst := by
      intro k hk
      rw [hset, List.map_append, List.mem_append, not_or]
      refine ⟨hd k (List.mem_cons_of_mem _ hk), ?_⟩
      rw [List.map_singleton, List.mem_singleton]
      rintro rfl
      exact hp.1 hk
    refine (ih hp.2 hrest).trans ?_
    rw [hset, List.append_assoc, List.singleton_append]

/-- Properties that are all different stand as they were set. -/
theorem toList_ofList {pairs : List (String × String)} (h : (pairs.map Prod.fst).Nodup) :
    (ofList pairs).toList = pairs :=
  toList_setAll h fun _ _ => List.not_mem_nil

end Declarations

/-! ### Groups of properties -/

/-- Different properties, all of them among `names`. -/
structure DrawnFrom (names : List String) (pairs : List (String × String)) : Prop where
  nodup : (pairs.map Prod.fst).Nodup
  mem : ∀ pair ∈ pairs, pair.1 ∈ names

namespace DrawnFrom

variable {names names' : List String} {pairs pairs' : List (String × String)}

theorem nil : DrawnFrom names [] := ⟨List.nodup_nil, nofun⟩

theorem append (h : DrawnFrom names pairs) (h' : DrawnFrom names' pairs')
    (hd : ∀ k ∈ names, k ∉ names') : DrawnFrom (names ++ names') (pairs ++ pairs') where
  nodup := by
    rw [List.map_append]
    refine h.nodup.append h'.nodup fun k hk hk' => ?_
    obtain ⟨pair, hpair, rfl⟩ := List.mem_map.mp hk
    obtain ⟨pair', hpair', heq⟩ := List.mem_map.mp hk'
    exact hd pair.1 (h.mem pair hpair) (heq ▸ h'.mem pair' hpair')
  mem pair hpair :=
    List.mem_append.mpr ((List.mem_append.mp hpair).imp (h.mem pair) (h'.mem pair))

theorem whenSome {α : Type} {o : Option α} {property : String} {value : α → String} :
    DrawnFrom [property] (whenSome o fun a => (property, value a)) := by
  cases o with
  | none => exact nil
  | some a => exact ⟨List.nodup_singleton property, by simp [DesignMarkup.whenSome]⟩

theorem lookup_eq_none (h : DrawnFrom names pairs) {k : String} (hk : k ∉ names) :
    pairs.lookup k = none := by
  refine List.lookup_eq_none_iff.mpr fun pair hpair => bne_iff_ne.mpr ?_
  rintro rfl
  exact hk (h.mem pair hpair)

end DrawnFrom

/-! ### When a node has which placement -/

namespace Placement

variable {p : Props} {s : Surroundings}

theorem of_eq_flexItem (h : s.autoLayout = true) : of p s = .flexItem := by
  rw [of, if_pos h]

theorem of_eq_absolute (h : s.autoLayout = false)
    (h' : p.isAutoLayout = false ∨ s.coordinates = .relative) : of p s = .absolute := by
  rw [of, h, if_neg Bool.false_ne_true]
  refine if_neg fun hboth => ?_
  obtain ⟨hauto, hdocument⟩ := Bool.and_eq_true_iff.mp hboth
  rcases h' with h' | h'
  · rw [h'] at hauto
    cases hauto
  · rw [h'] at hdocument
    cases hdocument

theorem of_eq_sized (h : s.autoLayout = false)
    (h' : ¬(p.isAutoLayout = false ∨ s.coordinates = .relative)) : of p s = .sized := by
  rw [not_or, Bool.not_eq_false] at h'
  have hs : s.coordinates = .document := by
    cases hs : s.coordinates with
    | document => rfl
    | relative => exact absurd hs h'.2
  rw [of, h, if_neg Bool.false_ne_true, h'.1, hs]
  rfl

end Placement

namespace Style

/-! ### The groups -/

def placeNames : List String :=
  ["position", "left", "top", "width", "height", "flex-grow", "align-self"]

def flexNames : List String :=
  ["display", "flex-direction", "gap", "padding", "justify-content", "align-items"]

def decorationNames : List String := ["background-color", "border", "border-radius"]

def fontNames : List String := ["font-size", "font-weight", "color"]

theorem drawnFrom_place (p : Props) (box : Rect) (role : Role) (s : Surroundings) :
    DrawnFrom placeNames (place p box role s) := by
  unfold place size
  split
  · split_ifs <;> exact ⟨by simp, by simp [placeNames]⟩
  · exact ⟨by simp, by simp [placeNames]⟩
  · exact ⟨by simp, by simp [placeNames]⟩

theorem drawnFrom_flexOf (p : Props) : DrawnFrom flexNames (flexOf p) := by
  have hfirst : DrawnFrom ["display", "flex-direction"] [("display", "flex"),
      ("flex-direction", if p.layoutMode = some .horizontal then "row" else "column")] :=
    ⟨by simp, by simp⟩
  have hlast : DrawnFrom ["padding", "justify-content", "align-items"]
      [("padding", " ".intercalate ((padding p).map px)),
        ("justify-content", AxisAlign.css p.primaryAlign),
        ("align-items", AxisAlign.css p.counterAlign)] :=
    ⟨by simp, by simp⟩
  unfold flexOf
  split_ifs
  · exact (hfirst.append .whenSome (by decide)).append hlast (by decide)
  · exact .nil

theorem drawnFrom_decoration (p : Props) (role : Role) :
    DrawnFrom decorationNames (decoration p role) := by
  have hfill : DrawnFrom ["background-color"] (if role = .container then
      whenSome p.solidFill fun fill => ("background-color", Color.css? fill.color) else []) := by
    split_ifs
    · exact .whenSome
    · exact .nil
  exact (hfill.append .whenSome (by decide)).append .whenSome (by decide)

theorem drawnFrom_font (p : Props) : DrawnFrom fontNames (font p) := by
  have hsize : DrawnFrom ["font-size", "font-weight"]
      [("font-size", px ((p.style.bind (·.fontSize)).getD defaultFontSize)),
        ("font-weight", cssText ((p.style.bind (·.fontWeight)).getD defaultFontWeight))] :=
    ⟨by simp, by simp⟩
  exact hsize.append .whenSome (by decide)

/-! ### The declarations of a node -/

/-- The font that goes with a role. -/
def fontOf (p : Props) (role : Role) : List (String × String) := if role = .text then font p else []

theorem drawnFrom_fontOf (p : Props) (role : Role) : DrawnFrom fontNames (fontOf p role) := by
  unfold fontOf
  split_ifs
  · exact drawnFrom_font p
  · exact .nil

section Resolve

variable (p : Props) (box : Rect) (role : Role) (s : Surroundings)

theorem drawnFrom_groups :
    DrawnFrom (placeNames ++ flexNames ++ decorationNames ++ fontNames)
      (place p box role s ++ flexOf p ++ decoration p role ++ fontOf p role) :=
  (((drawnFrom_place p box role s).append (drawnFrom_flexOf p) (by decide)).append
    (drawnFrom_decoration p role) (by decide)).append (drawnFrom_fontOf p role) (by decide)

theorem toList_resolve :
    (resolve p box role s).toList =
      place p box role s ++ flexOf p ++ decoration p role ++ fontOf p role :=
  Declarations.toList_ofList (drawnFrom_groups p box role s).nodup

/-- No property is declared twice. -/
theorem nodup_resolve : ((resolve p box role s).toList.map Prod.fst).Nodup := by
  rw [toList_resolve]
  exact (drawnFrom_groups p box role s).nodup

theorem get?_resolve_place {k : String} (hk : k ∈ placeNames) :
    (resolve p box role s).get? k = (place p box role s).lookup k := by
  have hflex : k ∉ flexNames := (by decide : ∀ k ∈ placeNames, k ∉ flexNames) k hk
  have hdecoration : k ∉ decorationNames :=
    (by decide : ∀ k ∈ placeNames, k ∉ decorationNames) k hk
  have hfont : k ∉ fontNames := (by decide : ∀ k ∈ placeNames, k ∉ fontNames) k hk
  rw [Declarations.get?, toList_resolve, List.lookup_append, List.lookup_append,
    List.lookup_append, (drawnFrom_flexOf p).lookup_eq_none hflex,
    (drawnFrom_decoration p role).lookup_eq_none hdecoration,
    (drawnFrom_fontOf p role).lookup_eq_none hfont, Option.or_none, Option.or_none, Option.or_none]

theorem get?_resolve_flex {k : String} (hk : k ∈ flexNames) :
    (resolve p box role s).get? k = (flexOf p).lookup k := by
  have hplace : k ∉ placeNames := (by decide : ∀ k ∈ flexNames, k ∉ placeNames) k hk
  have hdecoration : k ∉ decorationNames :=
    (by decide : ∀ k ∈ flexNames, k ∉ decorationNames) k hk
  have hfont : k ∉ fontNames := (by decide : ∀ k ∈ flexNames, k ∉ fontNames) k hk
  rw [Declarations.get?, toList_resolve, List.lookup_append, List.lookup_append,
    List.lookup_append, (drawnFrom_place p box role s).lookup_eq_none hplace,
    (drawnFrom_decoration p role).lookup_eq_none hdecoration,
    (drawnFrom_fontOf p role).lookup_eq_none hfont, Option.none_or, Option.or_none, Option.or_none]

end Resolve

/-! ### Where a node is -/

section Place

variable (p : Props) (box : Rect) (role : Role) {s : Surroundings}

theorem get?_position_of_autoLayout (h : s.autoLayout = true) :
    (resolve p box role s).get? "position" =
      if s.coordinates = .relative ∧ role = .container ∧ p.isAutoLayout = false then
        some "relative"
      else none := by
  rw [get?_resolve_place p box role s (by decide), place, Placement.of_eq_flexItem h]
  simp only
  split_ifs <;> rfl

theorem get?_place_of_absolute (h : s.autoLayout = false)
    (h' : p.isAutoLayout = false ∨ s.coordinates = .relative) :
    (resolve p box role s).get? "position" = some "absolute" ∧
      (resolve p box role s).get? "left" = some (px (box.x - s.reference.1)) ∧
      (resolve p box role s).get? "top" = some (px (box.y - s.reference.2)) := by
  rw [get?_resolve_place p box role s (by decide), get?_resolve_place p box role s (by decide),
    get?_resolve_place p box role s (by decide), place, Placement.of_eq_absolute h h']
  exact ⟨rfl, rfl, rfl⟩

end Place

/-! ### The declarations of the container of a page -/

/-- The size of a page that has a box, and the space around it. -/
def pageSize (p : Props) : List (String × String) :=
  match p.box with
  | some box => size box ++ [("margin", "20px auto")]
  | none => []

def pageNames : List String :=
  ["position", "overflow", "background", "width", "height", "margin"] ++ flexNames

section Root

variable (p : Props)

theorem drawnFrom_pageSize : DrawnFrom ["width", "height", "margin"] (pageSize p) := by
  unfold pageSize size
  split
  · exact ⟨by simp, by simp⟩
  · exact .nil

theorem drawnFrom_rootGroups :
    DrawnFrom pageNames ([("position", "relative"), ("overflow", "hidden"),
      ("background", rootBackground p)] ++ pageSize p ++ flexOf p) := by
  have hfirst : DrawnFrom ["position", "overflow", "background"] [("position", "relative"),
      ("overflow", "hidden"), ("background", rootBackground p)] :=
    ⟨by simp, by simp⟩
  exact (hfirst.append (drawnFrom_pageSize p) (by decide)).append (drawnFrom_flexOf p) (by decide)

theorem toList_root :
    (root p).toList = [("position", "relative"), ("overflow", "hidden"),
      ("background", rootBackground p)] ++ pageSize p ++ flexOf p :=
  Declarations.toList_ofList (drawnFrom_rootGroups p).nodup

theorem nodup_root : ((root p).toList.map Prod.fst).Nodup := by
  rw [toList_root]
  exact (drawnFrom_rootGroups p).nodup

/-- The container of a page is a place of its own for what is inside. -/
theorem get?_root_position : (root p).get? "position" = some "relative" := by
  rw [Declarations.get?, toList_root]
  rfl

end Root

end Style

end DesignMarkup
