/-
  DesignMarkup/Proofs/Files/Path.lean
  ===================================
  **What a path says.**  Two paths that are written differently can say the same: empty
  components and single dots say nothing.  `Path.names` are the components that are left
  without those.  The operations on paths are told apart by what they do to the names and
  to the slash at the front:

    * the path around a path has its names but the last (`names_parent`);
    * a path within another has the names of both (`names_within`);
    * another extension changes the last name alone (`split_withExtension`).

  The last of these is said of the components themselves.  It is meant for paths that a file
  can be written to, and these end in a name.
-/
import DesignMarkup.Files.Path
import Mathlib.Data.List.TakeWhile
import Mathlib.Tactic.SplitIfs

namespace DesignMarkup.Path

/-! ### Components -/

theorem split_ne_nil (text : List Char) : split text ≠ [] := by
  cases text with
  | nil => simp [split]
  | cons c rest =>
    simp only [split]
    split_ifs
    · simp
    · split <;> simp

theorem slash_notMem_of_mem_split {component text : List Char} (h : component ∈ split text) :
    '/' ∉ component := by
  induction text generalizing component with
  | nil => simp_all [split]
  | cons c rest ih =>
    simp only [split] at h
    split_ifs at h with hc
    · rcases List.mem_cons.mp h with rfl | h
      · simp
      · exact ih h
    · cases hrest : split rest with
      | nil => exact absurd hrest (split_ne_nil rest)
      | cons first more =>
        rw [hrest] at h ih
        rcases List.mem_cons.mp h with rfl | h
        · have hfirst := ih List.mem_cons_self
          simp [Ne.symm hc, hfirst]
        · exact ih (List.mem_cons_of_mem _ h)

theorem split_eq_singleton {text : List Char} (h : '/' ∉ text) : split text = [text] := by
  induction text with
  | nil => rfl
  | cons c rest ih =>
    simp only [List.mem_cons, not_or] at h
    simp [split, Ne.symm h.1, ih h.2]

theorem split_append (text rest : List Char) :
    split (text ++ '/' :: rest) = split text ++ split rest := by
  induction text with
  | nil => simp [split]
  | cons c text ih =>
    simp only [List.cons_append, split, ih]
    split_ifs
    · rfl
    · cases htext : split text with
      | nil => exact absurd htext (split_ne_nil text)
      | cons first more => rfl

theorem join_cons {component : List Char} {rest : List (List Char)} (h : rest ≠ []) :
    join (component :: rest) = component ++ '/' :: join rest := by
  cases rest with
  | nil => exact absurd rfl h
  | cons _ _ => rfl

theorem join_split (text : List Char) : join (split text) = text := by
  induction text with
  | nil => rfl
  | cons c rest ih =>
    simp only [split]
    split_ifs with hc
    · rw [join_cons (split_ne_nil rest), ih, hc]
      rfl
    · cases hrest : split rest with
      | nil => exact absurd hrest (split_ne_nil rest)
      | cons first more =>
        rw [hrest] at ih
        cases more with
        | nil => simpa [join] using ih
        | cons _ _ => simpa [join] using ih

theorem split_join {components : List (List Char)} (h : components ≠ [])
    (hslash : ∀ component ∈ components, '/' ∉ component) : split (join components) = components := by
  induction components with
  | nil => exact absurd rfl h
  | cons component rest ih =>
    simp only [List.forall_mem_cons] at hslash
    by_cases hrest : rest = []
    · subst hrest
      exact split_eq_singleton hslash.1
    · rw [join_cons hrest, split_append, split_eq_singleton hslash.1, ih hrest hslash.2]
      rfl

theorem join_append_last (before : List (List Char)) (last more : List Char) :
    join (before ++ [last ++ more]) = join (before ++ [last]) ++ more := by
  induction before with
  | nil => rfl
  | cons component before ih =>
    rw [List.cons_append, List.cons_append, join_cons (by simp), join_cons (by simp), ih]
    simp

/-- What is put after a text goes into its last component, unless there is a slash in it. -/
theorem split_append_last {text rest last : List Char} {before : List (List Char)}
    (h : split text = before ++ [last]) (hrest : '/' ∉ rest) :
    split (text ++ rest) = before ++ [last ++ rest] := by
  have htext : text ++ rest = join (before ++ [last ++ rest]) := by
    rw [join_append_last, ← h, join_split]
  have hslash : ∀ component ∈ before ++ [last], '/' ∉ component := fun component hmem =>
    slash_notMem_of_mem_split (h ▸ hmem)
  rw [htext]
  apply split_join (by simp)
  intro component hmem
  rcases List.mem_append.mp hmem with hbefore | hlast
  · exact hslash component (List.mem_append_left _ hbefore)
  · obtain rfl := List.mem_singleton.mp hlast
    simp [hslash last (by simp), hrest]

theorem isAbsolute_iff {path : String} :
    isAbsolute path = true ↔ ∃ component rest, split path.toList = [] :: component :: rest := by
  unfold isAbsolute
  cases path.toList with
  | nil => simp [split]
  | cons c text =>
    simp only [List.head?_cons, beq_iff_eq, Option.some.injEq, split]
    split_ifs with hc
    · cases htext : split text with
      | nil => exact absurd htext (split_ne_nil text)
      | cons component rest => simp [hc]
    · simp only [hc, false_iff, not_exists]
      split <;> simp

theorem isAbsolute_congr {path path' : String} {before : List (List Char)}
    {last last' : List Char} (h : split path.toList = before ++ [last])
    (h' : split path'.toList = before ++ [last']) : isAbsolute path = isAbsolute path' := by
  rw [Bool.eq_iff_iff, isAbsolute_iff, isAbsolute_iff, h, h']
  cases before with
  | nil => simp
  | cons first more => cases more <;> simp

/-! ### Names -/

/-- The components of a path that say something. -/
def names (path : String) : List (List Char) :=
  (split path.toList).filter fun component => !isIdle component

/-- A component that can be the name of a file. -/
structure IsName (component : List Char) : Prop where
  not_idle : isIdle component = false
  not_up : component ≠ ['.', '.']

theorem names_eq_singleton {path : String} (hslash : '/' ∉ path.toList) (h : IsName path.toList) :
    names path = [path.toList] := by
  rw [names, split_eq_singleton hslash]
  simp [h.not_idle]

theorem isName_of_length {component : List Char} (h : 2 < component.length) :
    IsName component := by
  constructor
  · rw [Bool.eq_false_iff]
    intro hidle
    simp only [isIdle, Bool.or_eq_true, List.isEmpty_iff, beq_iff_eq] at hidle
    rcases hidle with rfl | rfl <;> simp at h
  · rintro rfl
    simp at h

theorem dropIdle_of_not_idle {component : List Char} {rest : List (List Char)}
    (h : isIdle component = false) : dropIdle (component :: rest) = component :: rest := by
  have hdot : component ≠ ['.'] := by
    rintro rfl
    exact absurd h (by decide)
  unfold dropIdle
  split
  · simp_all
  · simp_all
  · simp_all

theorem suffix_dropIdle (components : List (List Char)) : dropIdle components <:+ components := by
  fun_induction dropIdle components with
  | case1 => exact List.suffix_refl _
  | case2 => exact List.suffix_refl _
  | case3 component rest _ _ ih => exact ih.trans (List.suffix_cons _ _)
  | case4 => exact List.suffix_refl _

theorem filter_dropIdle (components : List (List Char)) :
    ((dropIdle components).filter fun component => !isIdle component) =
      components.filter fun component => !isIdle component := by
  fun_induction dropIdle components with
  | case1 => rfl
  | case2 => rfl
  | case3 component rest _ hidle ih => simp [hidle, ih]
  | case4 => rfl

/-- What is left without idle components at the end is a single dot or ends in a component
    that says something. -/
theorem dropIdle_cons_cases {components rest : List (List Char)} {component : List Char}
    (h : dropIdle components = component :: rest) :
    component = ['.'] ∧ rest = [] ∨ isIdle component = false := by
  fun_induction dropIdle components with
  | case1 => cases h
  | case2 =>
    cases h
    exact Or.inl ⟨rfl, rfl⟩
  | case3 _ _ _ _ ih => exact ih h
  | case4 first more _ hidle =>
    cases h
    exact Or.inr (by simpa using hidle)

theorem names_eq_reverse (path : String) :
    names path =
      ((dropIdle (split path.toList).reverse).filter fun component => !isIdle component).reverse := by
  rw [filter_dropIdle, List.filter_reverse, List.reverse_reverse]
  rfl

/-! ### The path around a path -/

theorem parent?_eq {path : String} {last : List Char} {before : List (List Char)}
    (h : dropIdle (split path.toList).reverse = last :: before) :
    ∃ parent, parent? path = some parent ∧
      names parent = (before.filter fun component => !isIdle component).reverse ∧
      isAbsolute parent = isAbsolute path := by
  have hsuffix : dropIdle before <:+ (split path.toList).reverse := by
    have hlast := suffix_dropIdle (split path.toList).reverse
    rw [h] at hlast
    exact (suffix_dropIdle before).trans ((List.suffix_cons _ _).trans hlast)
  have hparts : (dropIdle before).reverse <+: split path.toList := by
    rw [← List.reverse_suffix, List.reverse_reverse]
    exact hsuffix
  simp only [parent?, h]
  cases hbefore : dropIdle before with
  | nil =>
    have hnone : (before.filter fun component => !isIdle component) = [] := by
      rw [← filter_dropIdle, hbefore]
      rfl
    refine ⟨_, rfl, ?_, ?_⟩
    · rw [hnone]
      split_ifs <;> rfl
    · split_ifs with habsolute <;> simp only [habsolute] <;> rfl
  | cons component rest =>
    rw [hbefore] at hparts
    have hslash : ∀ c ∈ (component :: rest).reverse, '/' ∉ c := fun c hc =>
      slash_notMem_of_mem_split (hparts.subset hc)
    have hsplit : split (String.ofList (join (component :: rest).reverse)).toList =
        (component :: rest).reverse := by
      rw [String.toList_ofList]
      exact split_join (by simp) hslash
    refine ⟨_, rfl, ?_, ?_⟩
    · rw [names, hsplit, ← filter_dropIdle before, hbefore, List.filter_reverse]
    · -- an absolute path has an empty component in front, and what is left of it has more
      rw [Bool.eq_iff_iff, isAbsolute_iff, isAbsolute_iff, hsplit]
      constructor
      · rintro ⟨c, more, hfront⟩
        rw [hfront] at hparts
        obtain ⟨after, hafter⟩ := hparts
        exact ⟨c, more ++ after, hafter.symm⟩
      · rintro ⟨c, more, hfront⟩
        rw [hfront] at hparts
        cases hfirst : (component :: rest).reverse with
        | nil => simp at hfirst
        | cons first others =>
          rw [hfirst] at hparts
          obtain rfl : first = [] := (List.cons_prefix_cons.mp hparts).1
          cases others with
          | cons d others => exact ⟨d, others, rfl⟩
          | nil =>
            have hone : component :: rest = [[]] := by
              rw [← List.reverse_reverse (component :: rest), hfirst]
              rfl
            obtain ⟨rfl, rfl⟩ := List.cons_eq_cons.mp hone
            rcases dropIdle_cons_cases hbefore with ⟨hdot, -⟩ | hidle
            · cases hdot
            · exact absurd hidle (by decide)

/-- Around a name in a directory stands the path of the directory. -/
theorem parent?_append_slash {path name : String} {before : List (List Char)}
    {last : List Char} (hpath : split path.toList = before ++ [last]) (hlast : isIdle last = false)
    (hslash : '/' ∉ name.toList) (hname : isIdle name.toList = false) :
    parent? (path ++ "/" ++ name) = some path := by
  have hsplit : split (path ++ "/" ++ name).toList = split path.toList ++ [name.toList] := by
    rw [String.toList_append, String.toList_append, List.append_assoc,
      ← split_eq_singleton hslash]
    exact split_append path.toList name.toList
  have hreversed : (split path.toList).reverse = last :: before.reverse := by
    rw [hpath, List.reverse_append]
    rfl
  simp only [parent?]
  rw [hsplit, List.reverse_append, List.reverse_singleton, List.singleton_append,
    dropIdle_of_not_idle hname]
  simp only
  rw [hreversed, dropIdle_of_not_idle hlast]
  simp only
  rw [← hreversed, List.reverse_reverse, join_split, String.ofList_toList]

/-- The path around a path that has a name at its end. -/
theorem names_parent {path parent : String} {name : List Char} (hname : fileName? path = some name)
    (hparent : parent? path = some parent) :
    names path = names parent ++ [name] ∧ isAbsolute parent = isAbsolute path ∧ IsName name := by
  unfold fileName? at hname
  cases hcomponents : dropIdle (split path.toList).reverse with
  | nil => simp [hcomponents] at hname
  | cons last before =>
    obtain ⟨parent', hparent', hnames, habsolute⟩ := parent?_eq hcomponents
    obtain rfl : parent = parent' := Option.some.inj (hparent.symm.trans hparent')
    simp only [hcomponents, Option.ite_none_left_eq_some, not_or, Option.some.injEq] at hname
    obtain ⟨⟨hdot, hup⟩, rfl⟩ := hname
    have hidle : isIdle last = false := by
      rcases dropIdle_cons_cases hcomponents with ⟨h, -⟩ | h
      · exact absurd h hdot
      · exact h
    refine ⟨?_, habsolute, hidle, hup⟩
    rw [names_eq_reverse, hcomponents, hnames]
    simp [hidle]

/-! ### A path within another -/

theorem names_append_slash (text rest : String) :
    names (text ++ "/" ++ rest) = names text ++ names rest := by
  have htext : (text ++ "/" ++ rest).toList = text.toList ++ '/' :: rest.toList := by simp
  rw [names, htext, split_append, List.filter_append]
  rfl

theorem names_within (base : String) {path : String} (h : isAbsolute path = false) :
    names (within base path) = names base ++ names path := by
  unfold within
  simp only [h, Bool.false_or]
  split_ifs with hempty hslash
  · obtain rfl : base = "" := by simpa using hempty
    rfl
  · -- the slash at the end of the base adds an empty component to it, and no name
    obtain ⟨front, hfront⟩ := List.getLast?_eq_some_iff.mp (beq_iff_eq.mp hslash)
    have hbase : base = String.ofList front ++ "/" ++ "" := by
      rw [← String.toList_inj]
      simpa using hfront
    rw [hbase, names_append_slash, String.append_empty, names_append_slash]
    simp [names, split, isIdle]
  · exact names_append_slash base path

theorem isAbsolute_within (base : String) {path : String} (h : isAbsolute path = false) :
    isAbsolute (within base path) = isAbsolute base := by
  unfold within
  simp only [h, Bool.false_or]
  split_ifs with hempty hslash
  · obtain rfl : base = "" := by simpa using hempty
    exact h
  all_goals
    cases hbase : base.toList with
    | nil => simp_all
    | cons c rest => simp [isAbsolute, hbase]

/-- A name taken from within a path is the last component there; before it stands nothing with
    a name that the path does not have. -/
theorem split_within (base : String) {name : String} (hslash : '/' ∉ name.toList) :
    ∃ before, split (within base name).toList = before ++ [name.toList] ∧
      before.filter (fun component => !isIdle component) = names base := by
  have hrelative : isAbsolute name = false := by
    rw [Bool.eq_false_iff]
    intro habsolute
    exact hslash (List.mem_of_head? (beq_iff_eq.mp habsolute))
  have hname := split_eq_singleton hslash
  unfold within
  simp only [hrelative, Bool.false_or]
  split_ifs with hempty hend
  · obtain rfl : base = "" := by simpa using hempty
    exact ⟨[], hname, rfl⟩
  · obtain ⟨front, hfront⟩ := List.getLast?_eq_some_iff.mp (beq_iff_eq.mp hend)
    refine ⟨split front, ?_, ?_⟩
    · rw [String.toList_append, hfront, List.append_assoc, List.singleton_append, split_append,
        hname]
    · rw [names, hfront, split_append, List.filter_append]
      simp [split, isIdle]
  · refine ⟨split base.toList, ?_, rfl⟩
    rw [String.toList_append, String.toList_append, List.append_assoc, ← hname]
    exact split_append base.toList name.toList

/-! ### Stems and extensions -/

theorem dropWhile_dot {text : List Char} (h : '.' ∉ text) (rest : List Char) :
    (text ++ '.' :: rest).dropWhile (· ≠ '.') = '.' :: rest := by
  induction text with
  | nil => rfl
  | cons c text ih =>
    simp only [List.mem_cons, not_or] at h
    rw [List.cons_append, List.dropWhile_cons_of_pos (by simpa using Ne.symm h.1), ih h.2]

theorem stemOf_append {stem extension : List Char} (hstem : stem ≠ []) (h : '.' ∉ extension) :
    stemOf (stem ++ '.' :: extension) = stem := by
  have hreverse : (stem ++ '.' :: extension).reverse =
      extension.reverse ++ '.' :: stem.reverse := by simp
  unfold stemOf
  rw [hreverse, dropWhile_dot (by simpa using h), List.reverse_cons, List.reverse_reverse,
    List.dropLast_concat]
  split
  · exact absurd rfl hstem
  · rfl

/-- A name has no extension and is its own stem, or it is its stem, a dot and its extension. -/
theorem extensionOf_cases (name : List Char) :
    extensionOf name = none ∧ stemOf name = name ∨
      ∃ extension, extensionOf name = some extension ∧ stemOf name ≠ [] ∧ '.' ∉ extension ∧
        name = stemOf name ++ '.' :: extension := by
  by_cases hname : stemOf name = name
  · exact Or.inl ⟨by simp [extensionOf, hname], hname⟩
  right
  by_cases hdot : '.' ∈ name.reverse
  · obtain ⟨after, before, hsplit, hafter⟩ := List.eq_append_cons_of_mem hdot
    have hparts : name = before.reverse ++ '.' :: after.reverse := by
      rw [← List.reverse_inj, hsplit]
      simp
    have hbefore : before.reverse ≠ [] := by
      intro hnil
      apply hname
      rw [stemOf, hsplit, dropWhile_dot hafter, List.reverse_cons, hnil]
      rfl
    have hextension : '.' ∉ after.reverse := by simpa using hafter
    have hstem : stemOf name = before.reverse := by
      rw [hparts]
      exact stemOf_append hbefore hextension
    refine ⟨after.reverse, ?_, ?_, hextension, ?_⟩
    · rw [extensionOf, if_neg hname, hstem, hparts, List.append_cons, List.drop_left' (by simp)]
    · rw [hstem]
      exact hbefore
    · rw [hstem]
      exact hparts
  · have hdrop : name.reverse.dropWhile (· ≠ '.') = [] := by
      rw [List.dropWhile_eq_nil_iff]
      intro c hc
      simpa using fun h : c = '.' => hdot (h ▸ hc)
    exact absurd (by rw [stemOf, hdrop]; rfl) hname

theorem extensionOf_eq_some_iff {name extension : List Char} :
    extensionOf name = some extension ↔ name = stemOf name ++ '.' :: extension := by
  rcases extensionOf_cases name with ⟨hnone, hself⟩ | ⟨old, hold, -, -, hname⟩
  · rw [hnone, hself]
    simp
  · rw [hold, Option.some.injEq]
    constructor
    · rintro rfl
      exact hname
    · intro h
      have hsame : '.' :: old = '.' :: extension :=
        List.append_cancel_left (hname.symm.trans h)
      exact (List.cons_eq_cons.mp hsame).2

theorem prefix_stemOf (name : List Char) : stemOf name <+: name := by
  rcases extensionOf_cases name with ⟨-, hself⟩ | ⟨extension, -, -, -, hname⟩
  · exact ⟨[], by rw [List.append_nil, hself]⟩
  · exact ⟨'.' :: extension, hname.symm⟩

theorem stemOf_ne_nil {name : List Char} (h : name ≠ []) : stemOf name ≠ [] := by
  rcases extensionOf_cases name with ⟨-, hself⟩ | ⟨_, -, hstem, -⟩
  · rw [hself]
    exact h
  · exact hstem

/-- The extension of the last name of a path. -/
def extension? (path : String) : Option (List Char) := (fileName? path).bind extensionOf

/-! ### Another extension -/

theorem dropBytes_zero (text : List Char) : dropBytes 0 text = text := by
  cases text with
  | nil => rfl
  | cons c rest =>
    have hsize := c.utf8Size_pos
    simp only [dropBytes]
    rw [if_neg (by omega)]

theorem dropBytes_append (text rest : List Char) :
    dropBytes (text.foldr (fun c n => c.utf8Size + n) 0) (text ++ rest) = rest := by
  induction text with
  | nil => exact dropBytes_zero rest
  | cons c text ih =>
    simp only [List.foldr_cons, List.cons_append, dropBytes]
    rw [if_pos (Nat.le_add_right _ _), Nat.add_sub_cancel_left, ih]

section Ending

variable {path extension : String} {before : List (List Char)} {name : List Char}

theorem fileName?_of_not_idle (hsplit : split path.toList = before ++ [name])
    (hidle : isIdle name = false) :
    fileName? path = (if name = ['.', '.'] then none else some name) ∧
      significant path = before ++ [name] := by
  have hcomponents : dropIdle (split path.toList).reverse = name :: before.reverse := by
    rw [hsplit, List.reverse_append]
    exact dropIdle_of_not_idle hidle
  have hdot : name ≠ ['.'] := by
    rintro rfl
    exact absurd hidle (by decide)
  constructor
  · simp [fileName?, hcomponents, hdot]
  · simp [significant, hcomponents]

theorem fileName?_eq (hsplit : split path.toList = before ++ [name]) (h : IsName name) :
    fileName? path = some name := by
  rw [(fileName?_of_not_idle hsplit h.not_idle).1, if_neg h.not_up]

theorem fileName?_eq_none (hsplit : split path.toList = before ++ [['.', '.']]) :
    fileName? path = none :=
  (fileName?_of_not_idle hsplit (by decide)).1

theorem split_restem (hsplit : split path.toList = before ++ [name]) (h : IsName name)
    (hslash : '/' ∉ extension.toList) :
    split (restem path extension).toList =
      before ++ [stemOf name ++ '.' :: extension.toList] := by
  have htext : (restem path extension).toList =
      join (before ++ [stemOf name ++ '.' :: extension.toList]) := by
    rw [join_append_last]
    simp [restem, fileName?_eq hsplit h, (fileName?_of_not_idle hsplit h.not_idle).2]
  rw [htext]
  apply split_join (by simp)
  have hparts : ∀ component ∈ before ++ [name], '/' ∉ component := by
    intro component hcomponent
    rw [← hsplit] at hcomponent
    exact slash_notMem_of_mem_split hcomponent
  have hstem : '/' ∉ stemOf name := by
    intro hmem
    exact hparts name (by simp) ((prefix_stemOf name).subset hmem)
  intro component hcomponent
  rcases List.mem_append.mp hcomponent with hmem | hmem
  · exact hparts component (List.mem_append_left _ hmem)
  · obtain rfl := List.mem_singleton.mp hmem
    simp [hstem, hslash]

/-- The path cut off behind the dot of its extension. -/
theorem split_cut {old stem : List Char}
    (hsplit : split path.toList = before ++ [stem ++ '.' :: old]) :
    split (String.ofList (dropBytes (old.foldr (fun c n => c.utf8Size + n) 0)
      path.toList.reverse).reverse).toList = before ++ [stem ++ ['.']] := by
  have htext : path.toList = join (before ++ [stem ++ ['.']]) ++ old := by
    rw [← join_append_last, ← join_split path.toList, hsplit]
    simp
  have hbytes : old.foldr (fun c n => c.utf8Size + n) 0 =
      old.reverse.foldr (fun c n => c.utf8Size + n) 0 := by
    have hsum : ∀ text : List Char,
        text.foldr (fun c n => c.utf8Size + n) 0 = (text.map Char.utf8Size).sum := by
      intro text
      rw [List.sum, List.foldr_map]
    rw [hsum, hsum, List.map_reverse, List.sum_reverse]
  have hslash : ∀ component ∈ before ++ [stem ++ ['.']], '/' ∉ component := by
    intro component hcomponent hmem
    rcases List.mem_append.mp hcomponent with hbefore | hlast
    · exact slash_notMem_of_mem_split (by rw [hsplit]; exact List.mem_append_left _ hbefore) hmem
    · obtain rfl := List.mem_singleton.mp hlast
      have hname : stem ++ '.' :: old ∈ split path.toList := by
        rw [hsplit]
        simp
      have hnone := slash_notMem_of_mem_split hname
      simp_all
  rw [String.toList_ofList, htext, List.reverse_append, hbytes, dropBytes_append,
    List.reverse_reverse]
  exact split_join (by simp) hslash

/-- **The path with another extension** differs in its last name: the stem stays. -/
theorem split_withExtension (hsplit : split path.toList = before ++ [name]) (h : IsName name)
    (hstem : stemOf name ≠ ['.']) (hslash : '/' ∉ extension.toList) :
    split (withExtension path extension).toList =
      before ++ [stemOf name ++ '.' :: extension.toList] := by
  simp only [withExtension, fileName?_eq hsplit h, Option.bind_some]
  rcases extensionOf_cases name with ⟨hnone, -⟩ | ⟨old, hold, hne, -, hname⟩
  · rw [hnone]
    exact split_restem hsplit h hslash
  · simp only [hold]
    rw [hname] at hsplit
    have hcut := split_cut hsplit
    have hlast : IsName (stemOf name ++ ['.']) := by
      constructor
      · cases hstemOf : stemOf name with
        | nil => exact absurd hstemOf hne
        | cons c rest => simp [isIdle]
      · intro hup
        apply hstem
        simpa using (List.append_inj' (hup : stemOf name ++ ['.'] = ['.'] ++ ['.']) rfl).1
    have hrestem := split_restem hcut hlast hslash
    rw [stemOf_append hne (by simp)] at hrestem
    exact hrestem

/-- A name like `..x` has no stem to put an extension to: the path goes a step up. -/
theorem split_withExtension_up (hsplit : split path.toList = before ++ [name]) (h : IsName name)
    (hstem : stemOf name = ['.']) :
    split (withExtension path extension).toList = before ++ [['.', '.']] := by
  simp only [withExtension, fileName?_eq hsplit h, Option.bind_some]
  rcases extensionOf_cases name with ⟨-, hself⟩ | ⟨old, hold, -, -, hname⟩
  · have hidle := h.not_idle
    rw [← hself, hstem] at hidle
    exact absurd hidle (by decide)
  · simp only [hold]
    rw [hname, hstem] at hsplit
    have hcut := split_cut hsplit
    simp only [restem, fileName?_eq_none hcut]
    exact hcut

/-- A name at the end of a path with another extension has that extension. -/
theorem name_withExtension (hsplit : split (withExtension path extension).toList = before ++ [name])
    (h : IsName name) (hslash : '/' ∉ extension.toList) :
    ∃ stem, name = stem ++ '.' :: extension.toList := by
  obtain ⟨kept, hkept⟩ : ∃ kept, withExtension path extension = restem kept extension := by
    unfold withExtension
    split
    · exact ⟨_, rfl⟩
    · exact ⟨_, rfl⟩
  rw [hkept] at hsplit
  cases hfile : fileName? kept with
  | none =>
    rw [restem, hfile] at hsplit
    rw [fileName?_eq hsplit h] at hfile
    cases hfile
  | some old =>
    have htext : (restem kept extension).toList =
        join ((significant kept).dropLast ++ [stemOf old]) ++ '.' :: extension.toList := by
      simp [restem, hfile]
    obtain ⟨before', last, hstem⟩ := (List.eq_nil_or_concat _).resolve_left
      (split_ne_nil (join ((significant kept).dropLast ++ [stemOf old])))
    rw [List.concat_eq_append] at hstem
    rw [htext, split_append_last hstem (by simp [hslash])] at hsplit
    obtain ⟨-, hname⟩ := List.append_inj' hsplit rfl
    exact ⟨last, (List.cons_eq_cons.mp hname).1.symm⟩

end Ending

end DesignMarkup.Path
