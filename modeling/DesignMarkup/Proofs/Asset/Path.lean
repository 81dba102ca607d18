/-
  DesignMarkup/Proofs/Asset/Path.lean
  ===================================
  **What the path of an asset is made of.**  Whatever the name of a layer, its path has
  small letters, digits and dashes, and the slashes and points that are put between them
  (`isPathChar_of_mem_path`).  None of these means anything to markup, so that a path stands
  in an attribute as it is (`escapeAttribute_path`).
-/
import DesignMarkup.Asset.Path
import DesignMarkup.Proofs.Markup.Entity
import DesignMarkup.Proofs.Text.Blank

namespace DesignMarkup

namespace Asset

/-! ### Tokens -/

theorem isTokenChar_of_mem_joinWords {c : Char} (pending : Bool) (text : List Char)
    (h : c ∈ joinWords pending text) : isTokenChar c = true := by
  induction text generalizing pending with
  | nil => exact absurd h List.not_mem_nil
  | cons d rest ih =>
    unfold joinWords at h
    split_ifs at h with hd hpending
    · simp only [List.mem_cons] at h
      rcases h with rfl | rfl | h
      · decide
      · exact hd
      · exact ih false h
    · rcases List.mem_cons.mp h with rfl | h
      · exact hd
      · exact ih false h
    · exact ih _ h

theorem isTokenChar_of_mem_token {c : Char} {name : String} (h : c ∈ (token name).toList) :
    isTokenChar c = true := by
  rw [token, String.toList_ofList] at h
  exact isTokenChar_of_mem_joinWords false _ (Text.mem_of_mem_trimBoth h)

/-! ### Paths -/

/-- A character that may stand in the path of an asset. -/
def isPathChar (c : Char) : Bool := isTokenChar c || c == '/' || c == '.'

theorem isPathChar_of_mem_fileName {c : Char} {name : String} {kind : AssetKind}
    (h : c ∈ (fileName name kind).toList) : isPathChar c = true := by
  unfold fileName at h
  split_ifs at h
  · have hplaceholder : kind.placeholder.toList.all isPathChar = true := by cases kind <;> decide
    exact List.all_eq_true.mp hplaceholder c h
  · simp [isPathChar, isTokenChar_of_mem_token h]

/-- **A path is made of path characters,** whatever the name. -/
theorem isPathChar_of_mem_path {c : Char} {name : String} {kind : AssetKind}
    (h : c ∈ (path name kind).toList) : isPathChar c = true := by
  have hhere : "./".toList.all isPathChar = true := by decide
  have hslash : "/".toList.all isPathChar = true := by decide
  have hpoint : ".".toList.all isPathChar = true := by decide
  have hdirectory : kind.directory.toList.all isPathChar = true := by cases kind <;> decide
  have hextension : kind.extension.toList.all isPathChar = true := by cases kind <;> decide
  simp only [path, localPath, String.toList_append, List.mem_append] at h
  rcases h with h | (((h | h) | h) | h) | h
  · exact List.all_eq_true.mp hhere c h
  · exact List.all_eq_true.mp hdirectory c h
  · exact List.all_eq_true.mp hslash c h
  · exact isPathChar_of_mem_fileName h
  · exact List.all_eq_true.mp hpoint c h
  · exact List.all_eq_true.mp hextension c h

theorem harmless_of_pathChar {c : Char} (h : isPathChar c = true) :
    Markup.isHarmless c = true := by
  by_contra hc
  simp only [Markup.isHarmless, Markup.isReserved, Bool.and_eq_true, Bool.not_eq_true',
    Bool.or_eq_false_iff, beq_eq_false_iff_ne, bne_iff_ne, not_and_or, not_not] at hc
  rcases hc with ((rfl | rfl) | rfl) | rfl
  all_goals exact absurd h (by decide)

theorem escapeAttribute_path (name : String) (kind : AssetKind) :
    Markup.escapeAttribute (path name kind) = path name kind := by
  apply Markup.escapeAttribute_eq_self
  intro c hc
  exact harmless_of_pathChar (isPathChar_of_mem_path hc)

end Asset

end DesignMarkup
