/-
  DesignMarkup/Proofs/Page/Media.lean
  ===================================
  **The manifest and the images on a page are one list.**  `Node.media` goes through all
  nodes below a root in the order of the document and keeps the images and icons that can
  be seen: they are shown themselves, and they stand in nothing but containers that are
  shown.  Neither style nor coordinates nor addresses have a say in it.

  The manifest of a page is that list (`filterMap_walkAll`).  So is what its markup shows:
  its `img` tags, in the order in which they stand in the text, belong to the entries one by
  one (`images_styledAll`), and each has the name and the address of its entry
  (`IsImageOf`).  The two lists come out of the page in different ways, the one from the
  styled tree and the other from the text, and `media_compileRoot` says that they agree.
-/
import DesignMarkup.Proofs.Asset.Path
import DesignMarkup.Proofs.Page.Depiction
import Mathlib.Data.List.Forall2

namespace DesignMarkup

open Markup

/-! ### The images and icons of a design -/

/-- A node that is come across, and the nodes that it stands in, the innermost first. -/
structure Visit where
  above : List Props
  props : Props

namespace Node

mutual

/-- A node and the nodes below it, depth first. -/
def walk (above : List Props) : Node → List Visit
  | ⟨p, children⟩ => ⟨above, p⟩ :: walkAll (p :: above) children

def walkAll (above : List Props) : List Node → List Visit
  | [] => []
  | n :: rest => walk above n ++ walkAll above rest

end

end Node

/-- A container that is shown, so that one can see what is in it. -/
def Props.IsOpen (p : Props) : Prop := p.isRenderable = true ∧ Role.ofProps p = .container

instance (p : Props) : Decidable p.IsOpen := by unfold Props.IsOpen; infer_instance

namespace Visit

/-- The node is shown, and it stands in nothing but containers that are shown. -/
def IsSeen (v : Visit) : Prop := v.props.isRenderable = true ∧ ∀ q ∈ v.above, q.IsOpen

instance (v : Visit) : Decidable v.IsSeen := by unfold IsSeen; infer_instance

/-- The asset of a node that is seen, if it is an image or an icon. -/
def asset? (v : Visit) : Option Asset :=
  if v.IsSeen then
    (Role.ofProps v.props).assetKind?.map fun kind => ⟨v.props.id, v.props.name, kind⟩
  else none

end Visit

/-- The images and icons that are seen below a root, in the order of the document. -/
def Node.media (root : Node) : List Asset := (walkAll [] root.children).filterMap Visit.asset?

theorem Visit.filterMap_asset?_cons (v : Visit) (rest : List Visit) :
    (v :: rest).filterMap asset? = v.asset?.toList ++ rest.filterMap asset? := by
  rw [List.filterMap_cons]
  cases v.asset? <;> rfl

namespace Node

mutual

/-- Inside something that cannot be looked into, nothing is seen. -/
theorem filterMap_walk_closed {q : Props} (hnot : ¬q.IsOpen) :
    ∀ (n : Node) {above : List Props}, q ∈ above → (walk above n).filterMap Visit.asset? = []
  | ⟨p, children⟩, above, hq => by
    have hself : Visit.asset? ⟨above, p⟩ = none := if_neg fun h => hnot (h.2 q hq)
    rw [walk, Visit.filterMap_asset?_cons, hself,
      filterMap_walkAll_closed hnot children (List.mem_cons_of_mem p hq)]
    rfl

theorem filterMap_walkAll_closed {q : Props} (hnot : ¬q.IsOpen) :
    ∀ (nodes : List Node) {above : List Props}, q ∈ above →
      (walkAll above nodes).filterMap Visit.asset? = []
  | [], _, _ => rfl
  | n :: rest, above, hq => by
    rw [walkAll, List.filterMap_append, filterMap_walk_closed hnot n hq,
      filterMap_walkAll_closed hnot rest hq, List.append_nil]

end

mutual

theorem filterMap_walk (s : Surroundings) :
    ∀ (n : Node) {above : List Props}, (∀ q ∈ above, q.IsOpen) →
      (walk above n).filterMap Visit.asset? = Styled.assetsOfAll (n.styled? s).toList
  | ⟨p, children⟩, above, habove => by
    rw [walk, Visit.filterMap_asset?_cons]
    by_cases hp : p.isRenderable = true
    · obtain ⟨box, -, he⟩ := styled?_eq_some hp children s
      have hself : Visit.asset? ⟨above, p⟩ = (Role.ofProps p).assetKind?.map (assetOf p.label) :=
        if_pos ⟨hp, habove⟩
      rw [hself, he, Option.toList_some, Styled.assetsOfAll, Styled.assets, Styled.assetsOfAll,
        List.append_nil]
      congr 1
      by_cases hrole : Role.ofProps p = .container
      · have hinside : ∀ q ∈ p :: above, q.IsOpen := by
          intro q hq
          rcases List.mem_cons.mp hq with rfl | hq
          · exact ⟨hp, hrole⟩
          · exact habove q hq
        rw [filterMap_walkAll (s.within p) children hinside, hrole]
        rfl
      · have hnot : ¬p.IsOpen := fun hopen => hrole hopen.2
        have hrecurses : (Role.ofProps p).recurses = false := beq_false_of_ne hrole
        rw [filterMap_walkAll_closed hnot children List.mem_cons_self, hrecurses]
        rfl
    · have hnot : ¬p.IsOpen := fun hopen => hp hopen.1
      have hself : Visit.asset? ⟨above, p⟩ = none := if_neg fun h => hp h.1
      have hnone : styled? s ⟨p, children⟩ = none := styled?_eq_none hp
      rw [hself, hnone, filterMap_walkAll_closed hnot children List.mem_cons_self]
      rfl

/-- **What is seen is what the styled tree has assets for.** -/
theorem filterMap_walkAll (s : Surroundings) :
    ∀ (nodes : List Node) {above : List Props}, (∀ q ∈ above, q.IsOpen) →
      (walkAll above nodes).filterMap Visit.asset? = Styled.assetsOfAll (styledAll s nodes)
  | [], _, _ => rfl
  | n :: rest, above, habove => by
    rw [walkAll, List.filterMap_append, filterMap_walk s n habove, filterMap_walkAll s rest habove,
      styledAll, Styled.assetsOfAll_append]

end

theorem assets_content (coordinates : Coordinates) (root : Node) :
    Styled.assetsOfAll (root.content coordinates) = root.media :=
  (filterMap_walkAll (.below coordinates root.props) root.children
    fun _ hq => absurd hq List.not_mem_nil).symm

end Node

/-! ### The images in markup -/

namespace Markup

def Token.image? : Token → Option (List Attribute)
  | .opening tag attributes _ => if tag = "img" then some attributes else none
  | .closing _ | .char _ => none

/-- The attributes of the `img` tags, as they are written. -/
def imageTags (tokens : List Token) : List (List Attribute) := tokens.filterMap Token.image?

mutual

/-- The attributes of the images in an element. -/
def Element.images : Element → List (List Attribute)
  | .void _ attributes => [attributes.map writtenAttribute]
  | .leaf _ _ _ => []
  | .branch _ _ children => imagesOfAll children

def imagesOfAll : List Element → List (List Attribute)
  | [] => []
  | e :: rest => e.images ++ imagesOfAll rest

end

theorem imageTags_append (tokens tokens' : List Token) :
    imageTags (tokens ++ tokens') = imageTags tokens ++ imageTags tokens' :=
  List.filterMap_append

theorem imageTags_cons_none {t : Token} (h : t.image? = none) (tokens : List Token) :
    imageTags (t :: tokens) = imageTags tokens :=
  List.filterMap_cons_none h

theorem imageTags_eq_nil {tokens : List Token} (h : ∀ t ∈ tokens, t.image? = none) :
    imageTags tokens = [] :=
  List.filterMap_eq_nil_iff.mpr h

theorem imageTags_indentTokens (depth : Nat) : imageTags (indentTokens depth) = [] := by
  apply imageTags_eq_nil
  intro t ht
  rw [List.eq_of_mem_replicate ht]
  rfl

theorem imageTags_contentTokens (text : String) :
    imageTags (text.toList.flatMap contentTokens) = [] := by
  apply imageTags_eq_nil
  intro t ht
  obtain ⟨c, -, hc⟩ := List.mem_flatMap.mp ht
  unfold contentTokens at hc
  split_ifs at hc
  · rw [List.mem_singleton.mp hc]
    decide
  · obtain ⟨d, -, rfl⟩ := List.mem_map.mp hc
    rfl

theorem image?_openingToken {tag : String} (h : tag ≠ "img") (attributes : List Attribute) :
    (openingToken tag attributes).image? = none :=
  if_neg h

mutual

/-- **The images of an element are the `img` tags that it is written with.** -/
theorem Element.imageTags_tokens (depth : Nat) :
    ∀ e : Element, e.IsReadable → imageTags (e.tokens depth) = e.images
  | .void tag attributes, h => by
    obtain ⟨rfl, -⟩ := h
    rw [Element.tokens, imageTags_append, imageTags_indentTokens]
    rfl
  | .leaf tag attributes text, h => by
    obtain ⟨rfl, -⟩ := h
    rw [Element.tokens, imageTags_append, imageTags_append, imageTags_indentTokens,
      imageTags_cons_none (image?_openingToken (by decide) attributes), imageTags_contentTokens]
    rfl
  | .branch tag attributes [], h => by
    obtain ⟨rfl, -⟩ := h
    rw [Element.tokens, imageTags_append, imageTags_indentTokens,
      imageTags_cons_none (image?_openingToken (by decide) attributes)]
    rfl
  | .branch tag attributes (first :: rest), h => by
    obtain ⟨rfl, -, hchildren⟩ := h
    have ih := imageTags_elementsTokens (depth + 1) (first :: rest) hchildren
    rw [Element.tokens, imageTags_append, imageTags_append, imageTags_append,
      imageTags_indentTokens, imageTags_cons_none (image?_openingToken (by decide) attributes),
      imageTags_cons_none rfl, ih]
    exact (List.append_nil _).trans (List.append_nil _)

theorem imageTags_elementsTokens (depth : Nat) :
    ∀ elements : List Element, AreReadable elements →
      imageTags (elementsTokens depth elements) = imagesOfAll elements
  | [], _ => rfl
  | e :: rest, h => by
    rw [elementsTokens, imageTags_append, Element.imageTags_tokens depth e h.1,
      imageTags_elementsTokens depth rest h.2, imagesOfAll]

end

theorem Fragment.imageTags_tokens {f : Fragment} (h : AreReadable f.children) :
    imageTags f.tokens = imagesOfAll f.children := by
  rw [Fragment.tokens, imageTags_append,
    imageTags_cons_none (image?_openingToken (by decide) f.attributes), imageTags_cons_none rfl,
    imageTags_elementsTokens 1 f.children h]
  exact List.append_nil _

end Markup

/-! ### Each image belongs to its entry -/

/-- The attributes of a tag, as they are written, are those of the image of an asset: its
    name, and the address supplied for its node or else its path. -/
structure IsImageOf (o : Options) (attributes : List Attribute) (a : Asset) : Prop where
  once : (attributes.map Prod.fst).Nodup
  alt : (attributes.lookup "alt").bind decodeText = some (unquoted a.name)
  src : attributes.lookup "src" = some
    (match o.assetUrls.lookup a.id with
      | some url => escapeAttribute url
      | none => Asset.path a.name a.kind)

theorem escapeAttribute_source (o : Options) (a : Asset) :
    escapeAttribute (o.source a) =
      match o.assetUrls.lookup a.id with
      | some url => escapeAttribute url
      | none => Asset.path a.name a.kind := by
  unfold Options.source
  cases o.assetUrls.lookup a.id with
  | none => exact Asset.escapeAttribute_path a.name a.kind
  | some url => rfl

/-- Attributes that begin with address and name, and do not give these again, are those of
    the image of an asset. -/
theorem isImageOf_of_attributes (o : Options) (a : Asset) (rest : List Attribute)
    (hrest : (rest.map Prod.fst).Nodup) (hsrc : "src" ∉ rest.map Prod.fst)
    (halt : "alt" ∉ rest.map Prod.fst) :
    IsImageOf o ((("src", o.source a) :: ("alt", a.name) :: rest).map writtenAttribute) a := by
  have hne : ("alt" == "src") = false := by decide
  have hnames : ((("src", o.source a) :: ("alt", a.name) :: rest).map writtenAttribute).map
      Prod.fst = "src" :: "alt" :: rest.map Prod.fst := by
    rw [List.map_map]
    rfl
  constructor
  · rw [hnames]
    refine List.nodup_cons.mpr ⟨?_, List.nodup_cons.mpr ⟨halt, hrest⟩⟩
    rw [List.mem_cons, not_or]
    exact ⟨by decide, hsrc⟩
  · simp only [List.map_cons, writtenAttribute, List.lookup_cons, hne, beq_self_eq_true,
      Option.bind_some, decodeText_escapeAttribute]
  · simp only [List.map_cons, writtenAttribute, List.lookup_cons, beq_self_eq_true,
      escapeAttribute_source]

theorem isImageOf_written (o : Options) {role : Role} {kind : AssetKind}
    (h : role.assetKind? = some kind) (label : Label) (style : String) :
    IsImageOf o
      ((o.ownAttributes role label ++ [(o.styleMode.attributeName, style)]).map writtenAttribute)
      (assetOf label kind) := by
  have hstyle : o.styleMode.attributeName ∉ ["src", "alt", "data-figma-name"] := by
    cases o.styleMode <;> decide
  simp only [List.mem_cons, List.not_mem_nil, or_false, not_or] at hstyle
  obtain ⟨hsrc, halt, hname⟩ := hstyle
  cases role with
  | text => cases h
  | container => cases h
  | image =>
    cases h
    apply isImageOf_of_attributes o (assetOf label .image)
      [("data-figma-name", label.name), (o.styleMode.attributeName, style)]
    · simpa using Ne.symm hname
    · simpa using Ne.symm hsrc
    · simpa using Ne.symm halt
  | icon =>
    cases h
    apply isImageOf_of_attributes o (assetOf label .icon) [(o.styleMode.attributeName, style)]
    · simp
    · simpa using Ne.symm hsrc
    · simpa using Ne.symm halt

mutual

/-- The images of a node that is shown belong to its assets. -/
theorem images_styled? (o : Options) :
    ∀ (n : Node) (s : Surroundings) (sheet : Stylesheet), n.props.isRenderable = true →
      ∃ e, n.styled? s = some e ∧
        List.Forall₂ (IsImageOf o) (e.markup o sheet).1.images e.assets
  | ⟨p, children⟩, s, sheet, h => by
    obtain ⟨box, -, he⟩ := Node.styled?_eq_some h children s
    obtain ⟨style, hstyle⟩ := exists_styleAttribute o
      (Style.isEmpty_resolve p box (Role.ofProps p) s) sheet
    refine ⟨_, he, ?_⟩
    simp only [Styled.markup, Styled.assets, hstyle]
    cases hrole : Role.ofProps p with
    | text => exact .nil
    | image => exact .cons (isImageOf_written o rfl p.label style) .nil
    | icon => exact .cons (isImageOf_written o rfl p.label style) .nil
    | container => exact images_styledAll o children (s.within p) _

/-- **The images of several nodes belong to their assets,** one by one and in order. -/
theorem images_styledAll (o : Options) :
    ∀ (nodes : List Node) (s : Surroundings) (sheet : Stylesheet),
      List.Forall₂ (IsImageOf o) (imagesOfAll (Styled.markupAll o (Node.styledAll s nodes) sheet).1)
        (Styled.assetsOfAll (Node.styledAll s nodes))
  | [], _, _ => .nil
  | n :: rest, s, sheet => by
    by_cases h : n.props.isRenderable = true
    · obtain ⟨e, he, hfirst⟩ := images_styled? o n s sheet h
      have hrest := images_styledAll o rest s (e.markup o sheet).2
      rw [Node.styledAll_cons_some he]
      exact List.rel_append hfirst hrest
    · rw [Node.styledAll_cons_hidden h]
      exact images_styledAll o rest s sheet

end

/-! ### The page -/

/-- **The manifest and the images on a page are one list.**  The assets of a page are the
    images and icons that are seen below its root, whatever the choices, and its `img` tags
    are those of the assets, one for each and in the same order. -/
theorem media_compileRoot (root : Node) (o : Options) :
    (compileRoot root o).assets = root.media ∧
    ∃ tokens, tokens? (compileRoot root o).html = some tokens ∧
      List.Forall₂ (IsImageOf o) (imageTags tokens) root.media := by
  let d := Style.root root.props
  let content := root.content o.coordinates
  let sheet := (Session.rootAttributes o d .empty).2
  have hmedia : Styled.assetsOfAll content = root.media := Node.assets_content o.coordinates root
  have hreadable := areReadable_markupAll o content sheet
  have htokens := tokens?_text
    (f := ⟨(Session.rootAttributes o d .empty).1, (Styled.markupAll o content sheet).1⟩)
    (areNamed_rootAttributes o d .empty) hreadable
  refine ⟨hmedia, _, htokens, ?_⟩
  rw [Fragment.imageTags_tokens hreadable, ← hmedia]
  exact images_styledAll o root.children (.below o.coordinates root.props) sheet

end DesignMarkup
