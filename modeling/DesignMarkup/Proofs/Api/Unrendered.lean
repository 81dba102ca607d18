/-
  DesignMarkup/Proofs/Api/Unrendered.lean
  =======================================
  **What the warning about images counts.**  The client compares how many ids it asked for
  with how many addresses came.  What it should count is the ids without an address, each
  once.  The two differ by the ids that were asked for again, which make it count too many,
  and by the addresses of ids that were never asked for, which make it count too few: each
  of these makes up for one image that did not come (`balance`).

  So the warning is right where the one makes up for the other, or where no id is without an
  address and the second hides the first; it is wrong elsewhere (`warnings_resolveImages`).
-/
import DesignMarkup.Proofs.Api.Saying
import Mathlib.Data.Finset.Card

namespace DesignMarkup.Client

/-- The warnings among what was said: how many images were not rendered, of how many. -/
def warnings (lines : List Line) : List (Nat × Nat) :=
  lines.filterMap fun
    | .notice (.unrendered missing total) => some (missing, total)
    | _ => none

section Counting

variable (ids : List String) (images : List (String × String))

/-- The ids that were asked for and have no address. -/
def unresolved : Finset String := ids.toFinset.filter fun id => images.lookup id = none

/-- The ids that have an address and were not asked for. -/
def unasked : Finset String := (images.map Prod.fst).toFinset \ ids.toFinset

/-- How often an id is asked for that was asked for before. -/
def repeats : Nat := ids.length - ids.toFinset.card

/-- What should be said of images: a warning if an id has no address, with the number of ids
    that have none. -/
structure IsRight (given : List (Nat × Nat)) : Prop where
  given_iff : given ≠ [] ↔ ∃ id ∈ ids, images.lookup id = none
  count : ∀ warning ∈ given, warning.1 = (unresolved ids images).card

/-- What is said of images. -/
def counted : List (Nat × Nat) :=
  if (unresolved ids images).card + repeats ids ≤ (unasked ids images).card then []
  else [((unresolved ids images).card + repeats ids - (unasked ids images).card, ids.length)]

variable {ids images}

theorem unresolved_eq_sdiff :
    unresolved ids images = ids.toFinset \ (images.map Prod.fst).toFinset := by
  ext id
  rw [unresolved, Finset.mem_filter, Finset.mem_sdiff, List.mem_toFinset (l := images.map Prod.fst),
    Json.lookup_eq_none_iff_notMem]

/-- **The images that came and those that did not, against the ids.**  The ids with an address
    that were asked for are on both sides. -/
theorem balance (ids : List String) (h : (images.map Prod.fst).Nodup) :
    images.length + ((unresolved ids images).card + repeats ids) =
      ids.length + (unasked ids images).card := by
  have hkeys : (images.map Prod.fst).toFinset.card = images.length := by
    rw [List.toFinset_card_of_nodup h, List.length_map]
  have hids : ids.toFinset.card ≤ ids.length := ids.toFinset_card_le
  have hunresolved : (unresolved ids images).card + images.length =
      (ids.toFinset ∪ (images.map Prod.fst).toFinset).card := by
    rw [unresolved_eq_sdiff, ← hkeys, Finset.card_sdiff_add_card]
  have hunasked : (unasked ids images).card + ids.toFinset.card =
      (ids.toFinset ∪ (images.map Prod.fst).toFinset).card := by
    rw [unasked, Finset.card_sdiff_add_card, Finset.union_comm]
  unfold repeats
  omega

theorem warnings_imageNotices (h : (images.map Prod.fst).Nodup) (format : ImageFormat) :
    warnings ((imageNotices ids format images).map .notice) = counted ids images := by
  have hbalance := balance ids h
  have hnotices : warnings ((imageNotices ids format images).map .notice) =
      warnings ((unrenderedNotice ids images).map .notice) := by
    unfold imageNotices
    split_ifs with hids
    · subst hids
      rw [unrenderedNotice, List.length_nil, if_neg (Nat.not_lt_zero _)]
    · rfl
  rw [hnotices, unrenderedNotice, counted]
  by_cases hfewer : images.length < ids.length
  · have hmissing : ids.length - images.length =
        (unresolved ids images).card + repeats ids - (unasked ids images).card := by omega
    rw [if_pos hfewer, if_neg (by omega), hmissing]
    rfl
  · rw [if_neg hfewer, if_pos (by omega)]
    rfl

/-! ### When the warning is right -/

theorem exists_none_iff :
    (∃ id ∈ ids, images.lookup id = none) ↔ (unresolved ids images).card ≠ 0 := by
  rw [← Nat.pos_iff_ne_zero, Finset.card_pos]
  unfold unresolved Finset.Nonempty
  simp only [Finset.mem_filter, List.mem_toFinset]

theorem isRight_nil_iff : IsRight ids images [] ↔ (unresolved ids images).card = 0 := by
  constructor
  · intro h
    by_contra hne
    exact h.given_iff.mpr (exists_none_iff.mpr hne) rfl
  · intro h
    exact ⟨⟨fun hne => absurd rfl hne, fun hnone => absurd h (exists_none_iff.mp hnone)⟩, nofun⟩

theorem isRight_singleton_iff {missing total : Nat} :
    IsRight ids images [(missing, total)] ↔
      (unresolved ids images).card ≠ 0 ∧ missing = (unresolved ids images).card := by
  constructor
  · intro h
    exact ⟨exists_none_iff.mp (h.given_iff.mp (List.cons_ne_nil _ _)),
      h.count _ List.mem_cons_self⟩
  · rintro ⟨hne, hcount⟩
    refine ⟨⟨fun _ => exists_none_iff.mpr hne, fun _ => List.cons_ne_nil _ _⟩, fun w hw => ?_⟩
    rw [List.mem_singleton.mp hw]
    exact hcount

theorem isRight_counted_iff :
    IsRight ids images (counted ids images) ↔
      repeats ids = (unasked ids images).card ∨
        unresolved ids images = ∅ ∧ repeats ids < (unasked ids images).card := by
  rw [counted, ← Finset.card_eq_zero]
  split_ifs with hcovered
  · rw [isRight_nil_iff]
    omega
  · rw [isRight_singleton_iff]
    omega

end Counting

/-- **What the warning says.**  For all ids and every answer that the client takes, the lines
    that it adds have the warning that `counted` tells, and no other: the number in it is that
    of the ids without an address and of the repeated ids, less that of the addresses nobody
    asked for.  Together with the addresses that came it makes up the ids, so that nothing is
    taken from what is less.  It is right, as `IsRight` has it, exactly if the repeated ids and
    the addresses nobody asked for are equally many, or no id is without an address and there
    are fewer of the former. -/
theorem warnings_resolveImages (network : Network) (c : ClientConfig) (fileKey : String)
    (ids : List String) (format : ImageFormat) {w w' : World} {images : List (String × String)}
    (h : resolveImages network c fileKey ids format w = .ok images w') :
    warnings w'.lines = warnings w.lines ++ counted ids images ∧
      (∀ warning ∈ counted ids images, warning.1 + images.length = ids.length) ∧
      (IsRight ids images (counted ids images) ↔
        repeats ids = (unasked ids images).card ∨
          unresolved ids images = ∅ ∧ repeats ids < (unasked ids images).card) := by
  obtain ⟨said, hlines, hascending, rfl⟩ := says_resolveImages network c fileKey ids format w h
  have hbalance := balance ids hascending.nodup_keys
  refine ⟨?_, ?_, isRight_counted_iff⟩
  · rw [hlines, warnings, List.filterMap_append]
    exact congrArg _ (warnings_imageNotices hascending.nodup_keys format)
  · intro warning hwarning
    unfold counted at hwarning
    split_ifs at hwarning with hcovered
    · cases hwarning
    · rw [List.mem_singleton.mp hwarning]
      simp only
      omega

/-- A service that answers every request with `text`. -/
def answering (text : String) : Network := fun _ => some ⟨200, text.toUTF8⟩

/-- Two ids are asked for; the address of one comes, and null for the other. -/
theorem warnings_resolveImages_missing :
    ∃ w', resolveImages (answering "\x7b\"images\":\x7b\"1\":\"u\",\"2\":null\x7d\x7d")
        ⟨"t", "http://a"⟩ "k" ["1", "2"] .png ⟨⟨[], []⟩, [], []⟩ = .ok [("1", "u")] w' ∧
      warnings w'.lines = [(1, 2)] := by
  obtain ⟨w', hok⟩ : ∃ w',
      resolveImages (answering "\x7b\"images\":\x7b\"1\":\"u\",\"2\":null\x7d\x7d")
        ⟨"t", "http://a"⟩ "k" ["1", "2"] .png ⟨⟨[], []⟩, [], []⟩ = .ok [("1", "u")] w' :=
    ⟨_, Work.ok_of_outcome (by decide +kernel)⟩
  refine ⟨w', hok, ?_⟩
  rw [(warnings_resolveImages _ _ _ _ _ hok).1]
  decide +kernel

/-- **Warnings that are wrong.**  The address of an id that nobody asked for hides that there
    is none for the id that was asked for; and of an id that is asked for twice, an image is
    said not to be rendered though its address came. -/
theorem not_isRight_warnings :
    (∃ w', resolveImages (answering "\x7b\"images\":\x7b\"1\":null,\"9\":\"u\"\x7d\x7d")
        ⟨"t", "http://a"⟩ "k" ["1"] .png ⟨⟨[], []⟩, [], []⟩ = .ok [("9", "u")] w' ∧
      warnings w'.lines = [] ∧ ¬ IsRight ["1"] [("9", "u")] []) ∧
    (∃ w', resolveImages (answering "\x7b\"images\":\x7b\"1\":\"u\"\x7d\x7d")
        ⟨"t", "http://a"⟩ "k" ["1", "1"] .png ⟨⟨[], []⟩, [], []⟩ = .ok [("1", "u")] w' ∧
      warnings w'.lines = [(1, 2)] ∧ ¬ IsRight ["1", "1"] [("1", "u")] [(1, 2)]) := by
  refine ⟨⟨_, Work.ok_of_outcome (by decide +kernel), by decide +kernel, ?_⟩,
    ⟨_, Work.ok_of_outcome (by decide +kernel), by decide +kernel, ?_⟩⟩
  · rw [isRight_nil_iff]
    decide +kernel
  · rw [isRight_singleton_iff]
    decide +kernel

end DesignMarkup.Client
