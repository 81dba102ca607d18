/-
  DesignMarkup/Proofs/Page/Addresses.lean
  =======================================
  **Addresses change nothing but the source of images.**  An address for an asset is any
  text, and it is looked up while the markup is written.  Still the stylesheet, the manifest
  and all other markup come out as they would without it: what is threaded through the walk
  is the same in both runs, so the two pages are a pair in which only `src` may differ, and
  only where the two maps say different things of the node (`DiffersInSource`).

  A command that has to know the assets before it can find their addresses therefore may
  convert twice, and get the second time the assets of the first.
-/
import DesignMarkup.Proofs.Page.Pairing

namespace DesignMarkup

open Markup

/-- The attributes of an element on two pages with different addresses: the same names, and
    the same values but for `src`.  That one differs only for an asset whose node the maps
    treat differently. -/
structure DiffersInSource (urls urls' : List (String × String)) (p : Props)
    (a a' : List Attribute) : Prop where
  names : a.map Prod.fst = a'.map Prod.fst
  others : a.filter (fun x => x.1 != "src") = a'.filter (fun x => x.1 != "src")
  source : (Role.ofProps p).assetKind? = none ∨ urls.lookup p.id = urls'.lookup p.id → a = a'

section Walk

variable {mode : StyleMode} {coordinates : Coordinates} {urls urls' : List (String × String)}

theorem ownAttributes_eq_of_lookup {p : Props}
    (h : (Role.ofProps p).assetKind? = none ∨ urls.lookup p.id = urls'.lookup p.id) :
    Options.ownAttributes ⟨mode, coordinates, urls⟩ (Role.ofProps p) p.label =
      Options.ownAttributes ⟨mode, coordinates, urls'⟩ (Role.ofProps p) p.label := by
  rcases h with hnone | hlookup
  · cases hrole : Role.ofProps p with
    | text | container => rfl
    | image | icon =>
      rw [hrole] at hnone
      cases hnone
  · have hsource : ∀ kind, Options.source ⟨mode, coordinates, urls⟩ (assetOf p.label kind) =
        Options.source ⟨mode, coordinates, urls'⟩ (assetOf p.label kind) := by
      intro kind
      exact congrArg (·.getD (assetOf p.label kind).ref) hlookup
    cases Role.ofProps p with
    | text | container => rfl
    | image | icon => simp only [Options.ownAttributes, hsource]

theorem differsInSource_attributesRead (p : Props) (d : Declarations) (sheet : Stylesheet) :
    DiffersInSource urls urls' p
      (Options.attributesRead ⟨mode, coordinates, urls⟩ p d sheet)
      (Options.attributesRead ⟨mode, coordinates, urls'⟩ p d sheet) := by
  constructor
  · simp only [Options.attributesRead, List.map_append]
    cases Role.ofProps p <;> rfl
  · simp only [Options.attributesRead, List.map_append, List.filter_append]
    cases Role.ofProps p <;> rfl
  · intro h
    rw [Options.attributesRead, Options.attributesRead, ownAttributes_eq_of_lookup h]
    rfl

variable (mode coordinates urls urls')

/-- The two walks go through the same surroundings with the same stylesheets. -/
theorem pairing_addresses (final final' : Stylesheet) :
    Pairing ⟨mode, coordinates, urls⟩ ⟨mode, coordinates, urls'⟩ final final' (· = ·) (· = ·)
      (DiffersInSource urls urls') where
  relates := by
    rintro p box s _ sheet _ rfl rfl _ _
    exact differsInSource_attributesRead p _ sheet
  within := by
    rintro s _ p rfl
    rfl
  sheets := by
    rintro s _ sheet _ p box rfl rfl
    rfl

end Walk

/-- **Addresses change nothing but the source of images.**  For every response, node name and
    two maps of addresses, either there is the same error, or there are two pages of the same
    root with the same stylesheet and the same assets.  Their markup has the same elements in
    the same places, and they differ in the `src` of those images alone whose nodes have
    different addresses in the two maps. -/
theorem addresses_compile (r : Response) (raw : Option String) (mode : StyleMode)
    (coordinates : Coordinates) (urls urls' : List (String × String)) :
    (∃ e, compile r raw ⟨mode, coordinates, urls⟩ = .error e ∧
      compile r raw ⟨mode, coordinates, urls'⟩ = .error e) ∨
    ∃ root output output' attributes elements elements', r.select raw = .ok root ∧
      compile r raw ⟨mode, coordinates, urls⟩ = .ok output ∧
      compile r raw ⟨mode, coordinates, urls'⟩ = .ok output' ∧
      output.css = output'.css ∧ output.assets = output'.assets ∧
      Markup.read? output.html = some [.branch "div" attributes elements] ∧
      Markup.read? output'.html = some [.branch "div" attributes elements'] ∧
      PairsAll (DiffersInSource urls urls') root.children elements elements' := by
  cases hselect : r.select raw with
  | error e => exact Or.inl ⟨e, by rw [compile, hselect]; rfl, by rw [compile, hselect]; rfl⟩
  | ok root =>
    obtain ⟨elements, elements', hread, hread', hsheet, hpairs⟩ :=
      pairs_compileRoot root (pairing_addresses mode coordinates urls urls' _ _) rfl rfl
    refine Or.inr ⟨root, _, _, _, elements, elements', rfl, ?_, ?_, ?_, ?_, hread, hread', hpairs⟩
    · rw [compile, hselect]
      rfl
    · rw [compile, hselect]
      rfl
    · exact congrArg Stylesheet.text hsheet
    · rfl

end DesignMarkup
