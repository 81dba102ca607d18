/-
  DesignMarkup/Proofs/Design/Parts.lean
  =====================================
  **What a value says of a tag, a box, a color, a paint or a font.**  The names of the tags are
  listed (`NodeType.names` and so on).  `IsRect`, `IsColor`, `IsPaint` and `IsTypeStyle` go by
  the keys that the fields have in an object and by their places in an array, and nothing in
  them refers to how such a value is read: a number is a number, and something is in a part
  exactly when it is written there.

  That a quiet reading gives what the value says is one lemma for each part
  (`isRect_of_decodes` and so on).  It comes of what a reading does to one field, the value of
  which it reads, and to the others, which it leaves alone (`Shape.Keeps`).
-/
import DesignMarkup.Proofs.Design.Quiet

namespace DesignMarkup

open Json (Value)

/-! ### What is written -/

def IsText (w : Value) (s : String) : Prop := w = .string s

def IsTruth (w : Value) (b : Bool) : Prop := w = .boolean b

def IsNumber (w : Value) (x : Float) : Prop := ∃ n, w = .number n ∧ x = n.toFloat

/-- The tag is the one with this name, or `other` if there is none. -/
def HasName {α : Type} (names : List (String × α)) (other : α) (name : String) (a : α) : Prop :=
  (name, a) ∈ names ∨ name ∉ names.map Prod.fst ∧ a = other

/-- The value is the name of the tag, or an object with nothing but the name and null under
    it. -/
def IsTag {α : Type} (names : List (String × α)) (other : α) (w : Value) (a : α) : Prop :=
  ∃ name, (w = .string name ∨ w = .object [(name, .null)]) ∧ HasName names other name a

def NodeType.names : List (String × NodeType) :=
  [("DOCUMENT", .document), ("CANVAS", .canvas), ("FRAME", .frame), ("GROUP", .group),
    ("SECTION", .canvasSection), ("TEXT", .text), ("RECTANGLE", .rectangle),
    ("ELLIPSE", .ellipse), ("LINE", .line), ("VECTOR", .vector), ("STAR", .star),
    ("REGULAR_POLYGON", .regularPolygon), ("BOOLEAN_OPERATION", .booleanOperation),
    ("COMPONENT", .component), ("COMPONENT_SET", .componentSet),
    ("INSTANCE", .componentInstance), ("SLICE", .slice)]

def LayoutMode.names : List (String × LayoutMode) :=
  [("NONE", .none), ("HORIZONTAL", .horizontal), ("VERTICAL", .vertical)]

def LayoutAlign.names : List (String × LayoutAlign) :=
  [("INHERIT", .inherit), ("STRETCH", .stretch), ("MIN", .min), ("CENTER", .center),
    ("MAX", .max)]

def AxisAlign.names : List (String × AxisAlign) :=
  [("MIN", .min), ("MAX", .max), ("CENTER", .center), ("SPACE_BETWEEN", .spaceBetween),
    ("BASELINE", .baseline)]

def PaintType.names : List (String × PaintType) :=
  [("SOLID", .solid), ("GRADIENT_LINEAR", .gradientLinear),
    ("GRADIENT_RADIAL", .gradientRadial), ("GRADIENT_ANGULAR", .gradientAngular),
    ("GRADIENT_DIAMOND", .gradientDiamond), ("IMAGE", .image), ("EMOJI", .emoji),
    ("VIDEO", .video)]

/-- All four numbers of the box are there. -/
structure IsRect (v : Value) (box : Rect) : Prop where
  x : Option.Rel IsNumber (v.at? ["x"] 0) (some box.x)
  y : Option.Rel IsNumber (v.at? ["y"] 1) (some box.y)
  width : Option.Rel IsNumber (v.at? ["width"] 2) (some box.width)
  height : Option.Rel IsNumber (v.at? ["height"] 3) (some box.height)

/-- The numbers of the color are there, but for the opacity, which is full if it is not. -/
structure IsColor (v : Value) (color : Color) : Prop where
  r : Option.Rel IsNumber (v.at? ["r"] 0) (some color.r)
  g : Option.Rel IsNumber (v.at? ["g"] 1) (some color.g)
  b : Option.Rel IsNumber (v.at? ["b"] 2) (some color.b)
  a : OrElse IsNumber 1 (v.at? ["a"] 3) color.a

/-- The paint has the type that is there, and a color exactly when one is given. -/
structure IsPaint (v : Value) (paint : Paint) : Prop where
  type : Option.Rel (IsTag PaintType.names .other) (v.at? ["type"] 0) (some paint.type)
  color : Option.Rel IsColor (given (v.at? ["color"] 1)) paint.color

/-- The style has each metric exactly when it is given. -/
structure IsTypeStyle (v : Value) (style : TypeStyle) : Prop where
  fontSize : Option.Rel IsNumber (given (v.at? ["fontSize"] 0)) style.fontSize
  fontWeight : Option.Rel IsNumber (given (v.at? ["fontWeight"] 1)) style.fontWeight

/-! ### Names of the tags -/

theorem hasName_of_forall {α : Type} {names : List (String × α)} {other : α} {ofName : String → α}
    (hin : ∀ p ∈ names, ofName p.1 = p.2) (hout : ∀ name ∉ names.map Prod.fst, ofName name = other)
    (name : String) : HasName names other name (ofName name) := by
  by_cases hname : name ∈ names.map Prod.fst
  · obtain ⟨p, hp, rfl⟩ := List.mem_map.mp hname
    rw [hin p hp]
    exact Or.inl hp
  · exact Or.inr ⟨hname, hout name hname⟩

theorem NodeType.hasName_ofName (name : String) : HasName names .other name (ofName name) := by
  refine hasName_of_forall (by decide) (fun name hname => ?_) name
  unfold ofName
  split
  all_goals first | rfl | exact absurd (by decide) hname

theorem LayoutMode.hasName_ofName (name : String) : HasName names .other name (ofName name) := by
  refine hasName_of_forall (by decide) (fun name hname => ?_) name
  unfold ofName
  split
  all_goals first | rfl | exact absurd (by decide) hname

theorem LayoutAlign.hasName_ofName (name : String) : HasName names .other name (ofName name) := by
  refine hasName_of_forall (by decide) (fun name hname => ?_) name
  unfold ofName
  split
  all_goals first | rfl | exact absurd (by decide) hname

theorem AxisAlign.hasName_ofName (name : String) : HasName names .other name (ofName name) := by
  refine hasName_of_forall (by decide) (fun name hname => ?_) name
  unfold ofName
  split
  all_goals first | rfl | exact absurd (by decide) hname

theorem PaintType.hasName_ofName (name : String) : HasName names .other name (ofName name) := by
  refine hasName_of_forall (by decide) (fun name hname => ?_) name
  unfold ofName
  split
  all_goals first | rfl | exact absurd (by decide) hname

namespace Decode

variable {α σ : Type} {w : Value}

/-! ### Single values -/

theorem isText_of_string {s : String} (h : string w = .ok s) : IsText w s := by
  cases w with
  | string s' =>
    obtain rfl := Except.ok.inj h
    rfl
  | null | boolean _ | number _ | array _ | object _ => cases h

theorem isTruth_of_boolean {b : Bool} (h : boolean w = .ok b) : IsTruth w b := by
  cases w with
  | boolean b' =>
    obtain rfl := Except.ok.inj h
    rfl
  | null | number _ | string _ | array _ | object _ => cases h

theorem isNumber_of_float {x : Float} (h : float w = .ok x) : IsNumber w x := by
  cases w with
  | number n => exact ⟨n, rfl, (Except.ok.inj h).symm⟩
  | null | boolean _ | string _ | array _ | object _ => cases h

theorem isTag_of_tag {names : List (String × α)} {other : α} {ofName : String → α}
    (hnames : ∀ name, HasName names other name (ofName name)) {a : α}
    (h : tag ofName w = .ok a) : IsTag names other w a := by
  unfold tag at h
  split at h
  next name =>
    obtain rfl := Except.ok.inj h
    exact ⟨name, Or.inl rfl, hnames name⟩
  next name =>
    obtain rfl := Except.ok.inj h
    exact ⟨name, Or.inr rfl, hnames name⟩
  all_goals cases h

/-- What is read leniently and quietly is there exactly when it is given. -/
theorem rel_of_decodes {type : String} {decode : Value → Logged (Decoded α)} {R : Value → α → Prop}
    (hread : ∀ {a}, Decodes decode w a → R w a) (hq : (lenient type decode w).Quiet) :
    Option.Rel R (given (some w)) (lenient type decode w).value := by
  refine rel_mono (decodes_lenient hq) fun u a hu h => ?_
  obtain rfl := eq_of_given hu
  exact hread h

theorem rel_of_lenient {type : String} {decode : Value → Decoded α} {R : Value → α → Prop}
    (hread : ∀ {w a}, decode w = .ok a → R w a)
    (hq : (lenient type (pure ∘ decode) w).Quiet) :
    Option.Rel R (given (some w)) (lenient type (pure ∘ decode) w).value :=
  rel_of_decodes (fun h => hread h.value) hq

/-! ### Records of numbers: boxes and colors -/

theorem exists_of_strict {decoded : Decoded α} {put : α → σ} {r : σ}
    (h : (strict decoded put).value = .ok r) : ∃ a, decoded = .ok a ∧ put a = r := by
  cases decoded with
  | error why => cases h
  | ok a => exact ⟨a, rfl, Except.ok.inj h⟩

/-- In a record of numbers, to put a value into a field is to set the number there, and no
    other, to the number that the value is. -/
def Shape.IsOfNumbers {φ : Type} (shape : Shape φ σ) (get : φ → σ → Float) : Prop :=
  ∀ f w r, ∃ set, shape.put f w r = strict (float w) set ∧
    ∀ x, get f (set x) = x ∧ ∀ f' ≠ f, get f' (set x) = get f' r

theorem Shape.IsOfNumbers.keeps {φ : Type} {shape : Shape φ σ} {get : φ → σ → Float}
    (h : shape.IsOfNumbers get) (default : φ → Float) :
    shape.Keeps fun f w? r => OrElse IsNumber (default f) w? (get f r) where
  self := by
    intro f w r r' hput _
    obtain ⟨set, hset, hget⟩ := h f w r
    rw [hset] at hput
    obtain ⟨x, hx, rfl⟩ := exists_of_strict hput
    rw [(hget x).1]
    exact isNumber_of_float hx
  other := by
    intro f f' w w? r r' hput hne hkeeps
    obtain ⟨set, hset, hget⟩ := h f w r
    rw [hset] at hput
    obtain ⟨x, -, rfl⟩ := exists_of_strict hput
    rw [(hget x).2 f' hne]
    exact hkeeps

def rectNumber (f : RectField) (box : Rect) : Float :=
  match f with
  | .x => box.x
  | .y => box.y
  | .width => box.width
  | .height => box.height

theorem isOfNumbers_rectShape : rectShape.IsOfNumbers rectNumber := by
  intro f w box
  cases f
  all_goals
    refine ⟨_, rfl, fun x => ⟨rfl, fun f' hne => ?_⟩⟩
    cases f'
    all_goals first | rfl | exact absurd rfl hne

theorem isRect_of_decodes {v : Value} {box : Rect} (hk : v.HasDistinctKeys)
    (h : Decodes rect v box) : IsRect v box := by
  have hfield := Shape.keeps_of_decode (isOfNumbers_rectShape.keeps fun _ => 0) (by decide)
    (fun f => by cases f <;> rfl) (fun f => by cases f <;> rfl) hk h.value h.quiet
  obtain ⟨hx, hxThere⟩ := hfield .x 0 rfl
  obtain ⟨hy, hyThere⟩ := hfield .y 1 rfl
  obtain ⟨hwidth, hwidthThere⟩ := hfield .width 2 rfl
  obtain ⟨hheight, hheightThere⟩ := hfield .height 3 rfl
  exact ⟨hx.rel (hxThere rfl), hy.rel (hyThere rfl), hwidth.rel (hwidthThere rfl),
    hheight.rel (hheightThere rfl)⟩

def colorNumber (f : ColorField) (color : Color) : Float :=
  match f with
  | .r => color.r
  | .g => color.g
  | .b => color.b
  | .a => color.a

theorem isOfNumbers_colorShape : colorShape.IsOfNumbers colorNumber := by
  intro f w color
  cases f
  all_goals
    refine ⟨_, rfl, fun x => ⟨rfl, fun f' hne => ?_⟩⟩
    cases f'
    all_goals first | rfl | exact absurd rfl hne

theorem isColor_of_decodes {v : Value} {c : Color} (hk : v.HasDistinctKeys)
    (h : Decodes color v c) : IsColor v c := by
  -- of the four numbers only the opacity may be absent
  have hfield := Shape.keeps_of_decode
    (isOfNumbers_colorShape.keeps fun f => if f = .a then 1 else 0) (by decide)
    (fun f => by cases f <;> rfl) (fun f => by cases f <;> rfl) hk h.value h.quiet
  obtain ⟨hr, hrThere⟩ := hfield .r 0 rfl
  obtain ⟨hg, hgThere⟩ := hfield .g 1 rfl
  obtain ⟨hb, hbThere⟩ := hfield .b 2 rfl
  exact ⟨hr.rel (hrThere rfl), hg.rel (hgThere rfl), hb.rel (hbThere rfl), (hfield .a 3 rfl).1⟩

/-! ### Paints and fonts -/

/-- What a paint has in a field.  A color that is in it has no key twice. -/
def paintKeeps (f : PaintField) (w? : Option Value) (p : Paint) : Prop :=
  match f with
  | .type => OrElse (IsTag PaintType.names .other) .other w? p.type
  | .color => Option.Rel (Decodes color) (given w?) p.color

theorem keeps_paintShape : paintShape.Keeps paintKeeps where
  self := by
    intro f w p p' h hq
    cases f with
    | type =>
      obtain ⟨type, htag, rfl⟩ := exists_of_strict h
      exact isTag_of_tag PaintType.hasName_ofName htag
    | color =>
      obtain rfl := Except.ok.inj h
      exact decodes_lenient (Logged.quiet_bind.mp hq).1
  other := by
    intro f g w w? p p' h hne hkeeps
    cases f with
    | type =>
      obtain ⟨type, -, rfl⟩ := exists_of_strict h
      cases g with
      | type => exact absurd rfl hne
      | color => exact hkeeps
    | color =>
      obtain rfl := Except.ok.inj h
      cases g with
      | type => exact hkeeps
      | color => exact absurd rfl hne

theorem isPaint_of_decodes {v : Value} {p : Paint} (hk : v.NoKeyTwice)
    (h : Decodes paint v p) : IsPaint v p := by
  have hblank : ∀ f, paintKeeps f none ⟨.other, none⟩ := fun f => by
    cases f with
    | type => rfl
    | color => exact .none
  have hfield := Shape.keeps_of_decode keeps_paintShape (by decide)
    (fun f => by cases f <;> rfl) hblank hk.distinct h.value h.quiet
  obtain ⟨htype, htypeThere⟩ := hfield .type 0 rfl
  refine ⟨htype.rel (htypeThere rfl), rel_mono (hfield .color 1 rfl).1 fun w c hw hc => ?_⟩
  exact isColor_of_decodes (hk.inside w (Json.Value.mem_parts_of_given hw)).distinct hc

/-- What a style has in a field. -/
def typeStyleKeeps (f : TypeStyleField) (w? : Option Value) (s : TypeStyle) : Prop :=
  match f with
  | .fontSize => Option.Rel IsNumber (given w?) s.fontSize
  | .fontWeight => Option.Rel IsNumber (given w?) s.fontWeight

theorem keeps_typeStyleShape : typeStyleShape.Keeps typeStyleKeeps where
  self := by
    intro f w s s' h hq
    cases f
    all_goals
      obtain rfl := Except.ok.inj h
      exact rel_of_lenient isNumber_of_float (Logged.quiet_bind.mp hq).1
  other := by
    intro f g w w? s s' h hne hkeeps
    cases f
    all_goals
      obtain rfl := Except.ok.inj h
      cases g
      all_goals first | exact hkeeps | exact absurd rfl hne

theorem isTypeStyle_of_decodes {v : Value} {s : TypeStyle} (hk : v.HasDistinctKeys)
    (h : Decodes typeStyle v s) : IsTypeStyle v s := by
  have hfield := Shape.keeps_of_decode keeps_typeStyleShape (by decide)
    (fun f => by cases f <;> rfl) (fun f => by cases f <;> exact .none) hk h.value h.quiet
  exact ⟨(hfield .fontSize 0 rfl).1, (hfield .fontWeight 1 rfl).1⟩

end Decode

end DesignMarkup
