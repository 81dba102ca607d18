/-
  DesignMarkup/Proofs/Page/Sources.lean
  =====================================
  **What becomes of an address that is supplied for an asset.**  It is any text, and it is
  written as the value of `src` with the same escapes as a name.  An ampersand and the angle
  brackets come back when the value is decoded; a double quote does not, since it was turned
  into a single one.

  `sourceRead?` is the address that a reader of the page gets.  It is the one supplied, but for
  its double quotes, for every image and icon that is seen; hence it is the one supplied
  exactly if there are none (`sourceRead?_compileRoot`).
-/
import DesignMarkup.Proofs.Page.Media

namespace DesignMarkup

open Markup

/-- The address that a reader takes from the attributes of a tag. -/
def sourceRead? (attributes : List Attribute) : Option String :=
  (attributes.lookup "src").bind decodeText

theorem IsImageOf.sourceRead? {o : Options} {attributes : List Attribute} {a : Asset}
    (h : IsImageOf o attributes a) {url : String} (hurl : o.assetUrls.lookup a.id = some url) :
    sourceRead? attributes = some (unquoted url) := by
  have hsrc := h.src
  rw [hurl] at hsrc
  rw [DesignMarkup.sourceRead?, hsrc, Option.bind_some, decodeText_escapeAttribute]

/-- The tags of the images on a page, each beside the image or icon that it belongs to. -/
theorem images_page (root : Node) (o : Options) :
    ∃ tokens, tokens? (compileRoot root o).html = some tokens ∧
      List.Forall₂ (IsImageOf o) (imageTags tokens) root.media := by
  let d := Style.root root.props
  let sheet := (Session.rootAttributes o d .empty).2
  have hnamed := areNamed_rootAttributes o d .empty
  have hreadable := areReadable_markupAll o (root.content o.coordinates) sheet
  refine ⟨_, tokens?_text (f := ⟨(Session.rootAttributes o d .empty).1,
    (Styled.markupAll o (root.content o.coordinates) sheet).1⟩) hnamed hreadable, ?_⟩
  rw [Fragment.imageTags_tokens hreadable, ← Node.assets_content o.coordinates]
  exact images_styledAll o root.children (.below o.coordinates root.props) sheet

/-- **A supplied address arrives but for its double quotes.**  Of every image and icon on a
    page whose node has an address in the map, a reader gets that address with single quotes
    for the double ones.  So it gets the address itself exactly if this has no double quote. -/
theorem sourceRead?_compileRoot (root : Node) (o : Options) :
    ∃ tokens, tokens? (compileRoot root o).html = some tokens ∧
      List.Forall₂ (fun attributes a => ∀ url, o.assetUrls.lookup a.id = some url →
          sourceRead? attributes = some (unquoted url) ∧
            (sourceRead? attributes = some url ↔ '"' ∉ url.toList))
        (imageTags tokens) root.media := by
  obtain ⟨tokens, htokens, himages⟩ := images_page root o
  refine ⟨tokens, htokens, himages.imp ?_⟩
  intro attributes a himage url hurl
  have hread := himage.sourceRead? hurl
  refine ⟨hread, ?_⟩
  rw [hread, Option.some.injEq, unquoted_eq_self_iff]

/-- A page with one photograph, for which an address is supplied. -/
def photoPage : Node :=
  ⟨{}, [⟨{ id := "1:1", name := "Photo", box := some ⟨0, 0, 10, 10⟩, fills := [⟨.image, none⟩] },
    []⟩]⟩

/-- Ampersands, brackets and text that looks like an entity arrive as they are. -/
theorem sourceRead?_compileRoot_entity :
    ([("1:1", "a?b=<1>&amp;c")] : List (String × String)).lookup "1:1" = some "a?b=<1>&amp;c" ∧
    ∃ tokens attributes,
      tokens? (compileRoot photoPage { assetUrls := [("1:1", "a?b=<1>&amp;c")] }).html =
        some tokens ∧
      imageTags tokens = [attributes] ∧ sourceRead? attributes = some "a?b=<1>&amp;c" := by
  have hlookup : ([("1:1", "a?b=<1>&amp;c")] : List (String × String)).lookup "1:1" =
      some "a?b=<1>&amp;c" := by decide
  refine ⟨hlookup, ?_⟩
  obtain ⟨tokens, htokens, htags⟩ :=
    sourceRead?_compileRoot photoPage { assetUrls := [("1:1", "a?b=<1>&amp;c")] }
  have hmedia : photoPage.media = [⟨"1:1", "Photo", .image⟩] := rfl
  rw [hmedia] at htags
  obtain ⟨attributes, rest, hfirst, hrest, htag⟩ := List.forall₂_cons_right_iff.mp htags
  obtain rfl := List.forall₂_nil_right_iff.mp hrest
  exact ⟨tokens, attributes, htokens, htag, (hfirst _ hlookup).2.mpr (by decide)⟩

/-- **A double quote in an address does not arrive.** -/
theorem sourceRead?_quote :
    ∃ tokens attributes,
      tokens? (compileRoot photoPage { assetUrls := [("1:1", "a\"b.png")] }).html = some tokens ∧
      imageTags tokens = [attributes] ∧ sourceRead? attributes = some "a'b.png" ∧
      sourceRead? attributes ≠ some "a\"b.png" := by
  obtain ⟨tokens, htokens, htags⟩ := images_page photoPage { assetUrls := [("1:1", "a\"b.png")] }
  have hmedia : photoPage.media = [⟨"1:1", "Photo", .image⟩] := rfl
  have hunquoted : unquoted "a\"b.png" = "a'b.png" := by decide
  rw [hmedia] at htags
  obtain ⟨attributes, rest, hfirst, hrest, htag⟩ := List.forall₂_cons_right_iff.mp htags
  obtain rfl := List.forall₂_nil_right_iff.mp hrest
  have hread : sourceRead? attributes = some "a'b.png" := by
    rw [hfirst.sourceRead? rfl, hunquoted]
  refine ⟨tokens, attributes, htokens, htag, hread, ?_⟩
  rw [hread]
  decide

end DesignMarkup
