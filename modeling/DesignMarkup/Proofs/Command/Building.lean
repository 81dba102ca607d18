/-
  DesignMarkup/Proofs/Command/Building.lean
  =========================================
  **What a build leaves.**  A build reads a source and perhaps a map of addresses, converts,
  and writes a page with its stylesheet; a fetch writes these too.  What is written then stands
  there, unless one of the files gives way to another: a page with the extension of a
  stylesheet to its own stylesheet, and a source to the page or the stylesheet that goes next
  to it if it has the extension of that (`Kept`).
-/
import DesignMarkup.Proofs.Command.Downloads
import DesignMarkup.Proofs.Design.Envelope
import DesignMarkup.Proofs.Page.Bearing

namespace DesignMarkup.Command

open FileTree (IsNewPlace)

/-! ### Reading and converting -/

section Reading

variable (t : FileTree)

theorem runs_readSource (path : String) :
    (readSource path).Runs t (t.readText path).toOption [] t := by
  intro w hw
  subst hw
  refine Work.RunsAt.get ?_
  cases hpresent : w.files.isPresent path with
  | false =>
    obtain ⟨e, htext⟩ := FileTree.readText_of_absent hpresent
    rw [htext]
    exact Work.runs_throw (Failure.missingFile path) _ w rfl
  | true =>
    cases w.files.readText path with
    | ok text => exact Work.runs_pure text _ w rfl
    | error e => exact Work.runs_throw (Failure.unreadable path e) _ w rfl

def sourceResponse? (path : String) : Option Response :=
  (t.readText path).toOption.bind fun text => (Response.parse text).1.toOption

theorem runs_readResponse (path : String) :
    (readResponse path).Runs t (sourceResponse? t path) [] t := by
  have hsource := runs_readSource t path
  unfold readResponse sourceResponse?
  cases htext : (t.readText path).toOption with
  | none =>
    rw [htext] at hsource
    exact hsource.bind_none
  | some text =>
    rw [htext] at hsource
    refine hsource.bind ?_
    rw [Option.bind_some]
    obtain ⟨result, notices⟩ := Response.parse text
    refine Work.Runs.note ?_
    cases result with
    | ok response => exact Work.runs_pure response t
    | error e => exact Work.runs_throw (Failure.badSource path e) t

/-- The addresses of a map, and none without one. -/
def assetMap? : Option String → Option (List (String × String))
  | some path => (t.readText path).toOption.bind fun text => (parseAssetMap text).toOption
  | none => some []

theorem runs_readAssetMap (path : String) :
    (readAssetMap path).Runs t (assetMap? t (some path)) [] t := by
  have hsource := runs_readSource t path
  unfold readAssetMap
  simp only [assetMap?]
  cases htext : (t.readText path).toOption with
  | none =>
    rw [htext] at hsource
    exact hsource.bind_none
  | some text =>
    rw [htext] at hsource
    refine hsource.bind ?_
    rw [Option.bind_some]
    cases parseAssetMap text with
    | ok urls => exact Work.runs_pure urls t
    | error e => exact Work.runs_throw (Failure.badAssetMap path e) t

end Reading

/-! ### The whole run -/

/-- Work that reads, and then work that may change the files. -/
theorem runs_bind_result {α : Type} {work : Job α} {f : α → Job Unit} {t : FileTree}
    {value? : Option α} {result : α → Bool × FileTree} (h : work.Runs t value? [] t)
    (h' : ∀ a, (f a).Runs t (done (result a).1) [] (result a).2) :
    (work >>= f).Runs t (done (value?.elim (false, t) result).1) []
      (value?.elim (false, t) result).2 := by
  cases value? with
  | none => exact h.bind_none
  | some a => exact h.bind (h' a)

section Build

variable (path : String) (c : Choices) (assetMap : Option String) (t : FileTree)

/-- Whether a build that starts on the files `t` succeeds, and the files that it leaves. -/
def built : Bool × FileTree :=
  (sourceResponse? t path).elim (false, t) fun response =>
    (assetMap? t assetMap).elim (false, t) fun urls =>
      (compile response c.node (c.options urls)).toOption.elim (false, t) fun output =>
        savePage (c.output.getD (defaultPage path)) output (c.pageTitle response (sourceStem path)) t

theorem runs_buildPage :
    (buildPage path c assetMap).Runs t (done (built path c assetMap t).1) []
      (built path c assetMap t).2 := by
  refine runs_bind_result (runs_readResponse t path) fun response => ?_
  have hafter := fun urls => runs_bind_result (runs_convert response c.node (c.options urls) t)
    fun output => runs_writeOutput (c.output.getD (defaultPage path)) output
      (c.pageTitle response (sourceStem path)) t
  cases assetMap with
  | none => exact runs_bind_result (Work.runs_pure [] t) hafter
  | some mapPath => exact runs_bind_result (runs_readAssetMap t mapPath) hafter

end Build

/-! ### Where the page of a source goes -/

section Source

variable {t t' : FileTree} {path : String} {before : List (List Char)} {last : List Char}
  {directory place : Place}

theorem sourceStem_eq (hsplit : Path.split path.toList = before ++ [last])
    (h : Path.IsName last) : sourceStem path = String.ofList (Path.stemOf last) := by
  rw [sourceStem, Path.stem?, Path.fileName?_eq hsplit h]
  rfl

theorem sourceStem_ne_nil (hsplit : Path.split path.toList = before ++ [last])
    (hidle : Path.isIdle last = false) : (sourceStem path).toList ≠ [] := by
  by_cases hup : last = ['.', '.']
  · subst hup
    rw [sourceStem, Path.stem?, Path.fileName?_eq_none hsplit]
    decide
  · rw [sourceStem_eq hsplit ⟨hidle, hup⟩, String.toList_ofList]
    apply Path.stemOf_ne_nil
    rintro rfl
    cases hidle

theorem slash_notMem_sourceStem (hsplit : Path.split path.toList = before ++ [last])
    (hidle : Path.isIdle last = false) : '/' ∉ (sourceStem path).toList := by
  by_cases hup : last = ['.', '.']
  · subst hup
    rw [sourceStem, Path.stem?, Path.fileName?_eq_none hsplit]
    decide
  · rw [sourceStem_eq hsplit ⟨hidle, hup⟩, String.toList_ofList]
    intro hmem
    have hlast : last ∈ Path.split path.toList := by simp [hsplit]
    exact Path.slash_notMem_of_mem_split hlast ((Path.prefix_stemOf last).subset hmem)

/-- The page of a source goes by default next to the source, under the stem of it. -/
theorem place_defaultPage (hsplit : Path.split path.toList = before ++ [last])
    (hidle : Path.isIdle last = false) (hfollow : t.follow (t.start path) before = .ok directory)
    (hfind : t.find (defaultPage path) = .ok place) :
    place = directory ++ [String.ofList ((sourceStem path).toList ++ '.' :: "html".toList)] := by
  have hslash : '/' ∉ (sourceStem path ++ ".html").toList := by
    simpa using slash_notMem_sourceStem hsplit hidle
  have hname : Path.IsName (sourceStem path ++ ".html").toList :=
    Path.isName_of_length (by simp)
  have hrelative : Path.isAbsolute (sourceStem path ++ ".html") = false := by
    rw [Path.isAbsolute, beq_eq_false_iff_ne]
    exact fun hhead => hslash (List.mem_of_mem_head? hhead)
  have hfile := FileTree.follow_within hsplit hidle hfollow hrelative hfind
  rw [Path.names_eq_singleton hslash hname] at hfile
  rw [FileTree.follow_name hname hfile, String.toList_append]
  rfl

/-- The file of a path is that of its last name, unless a step up leads to it. -/
theorem place_of_fileAt? (hfind : t.find path = .ok place)
    (hfile : (t.fileAt? place).isSome = true) :
    ∃ before last directory, Path.split path.toList = before ++ [last] ∧
      Path.isIdle last = false ∧ t.follow (t.start path) before = .ok directory ∧
      (Path.IsName last ∧ place = directory ++ [String.ofList last] ∨
        last = ['.', '.'] ∧ place = directory.dropLast) := by
  obtain ⟨before, last, hsplit⟩ :=
    (List.eq_nil_or_concat _).resolve_left (Path.split_ne_nil path.toList)
  have hfollow := (FileTree.find_eq_ok.mp hfind).2.2
  rw [List.concat_eq_append] at hsplit
  rw [hsplit] at hfollow
  obtain ⟨directory, hbefore, hlast⟩ := FileTree.follow_append_iff.mp hfollow
  obtain ⟨next, henters, hnext⟩ := FileTree.follow_cons_iff.mp hlast
  obtain rfl : next = place := Except.ok.inj hnext
  refine ⟨before, last, directory, hsplit, ?_⟩
  cases henters with
  | stay hdirectory _ =>
    rw [FileTree.fileAt?, hdirectory] at hfile
    cases hfile
  | up _ => exact ⟨rfl, hbefore, Or.inr ⟨rfl, rfl⟩⟩
  | name _ hname _ _ => exact ⟨hname.not_idle, hbefore, Or.inl ⟨hname, rfl⟩⟩

/-- A file next to a source, under the stem of it, is the source only if the source has its
    extension. -/
theorem ne_place_of_extension (extension : List Char) (hfind : t.find path = .ok place)
    (hfile : (t.fileAt? place).isSome = true)
    (hsplit : Path.split path.toList = before ++ [last])
    (hfollow : t.follow (t.start path) before = .ok directory)
    (hextension : Path.extension? path ≠ some extension) :
    place ≠ directory ++ [String.ofList ((sourceStem path).toList ++ '.' :: extension)] := by
  obtain ⟨before', last', directory', hsplit', -, hfollow', hplace⟩ :=
    place_of_fileAt? hfind hfile
  obtain ⟨rfl, hlast⟩ := List.append_inj' (hsplit.symm.trans hsplit') rfl
  obtain ⟨rfl, -⟩ := List.cons_eq_cons.mp hlast
  obtain rfl := Except.ok.inj (hfollow.symm.trans hfollow')
  rcases hplace with ⟨hname, rfl⟩ | ⟨-, rfl⟩
  · intro hsame
    apply hextension
    rw [Path.extension?, Path.fileName?_eq hsplit hname, Option.bind_some,
      Path.extensionOf_eq_some_iff]
    rw [sourceStem_eq hsplit hname] at hsame
    simpa [String.ext_iff] using hsame
  · intro hsame
    have hlength := congrArg List.length hsame
    simp only [List.length_dropLast, List.length_append, List.length_singleton] at hlength
    omega

/-- **A source stays as it is** unless it has the extension of a file that goes next to it. -/
theorem read_source {output : Output} {title : String} {content : ByteArray}
    (hsave : savePage (defaultPage path) output title t = (true, t'))
    (hread : t.read path = .ok content)
    (hpage : Path.extension? path ≠ some "html".toList)
    (hsheet : output.css = "" ∨ Path.extension? path ≠ some "css".toList) :
    t'.read path = .ok content := by
  have hwrites := writesPage_of_savePage hsave
  have hgrows := hwrites.changed.grows
  obtain ⟨_, name, directory, hnew⟩ := hwrites.takesPage
  have hnew' := hnew.grows hgrows
  obtain ⟨pagePlace, hfindPage⟩ := hwrites.there
  obtain ⟨source, hfind, hfile⟩ := FileTree.read_eq_ok.mp hread
  have hthere : (t.fileAt? source).isSome = true := by rw [hfile]; rfl
  obtain ⟨before, last, directory', hsplit, hidle, hfollow, -⟩ := place_of_fileAt? hfind hthere
  have hfollow' := hgrows.follow hfollow
  rw [← hgrows.start] at hfollow'
  have hdefault := place_defaultPage hsplit hidle hfollow' hfindPage
  obtain ⟨rfl, hname⟩ := List.append_inj' ((hnew'.place_eq hfindPage).symm.trans hdefault) rfl
  have hname := String.ofList_injective (List.cons_eq_cons.mp hname).1
  have hstem : Path.stemOf name = (sourceStem path).toList := by
    rw [hname]
    exact Path.stemOf_append (sourceStem_ne_nil hsplit hidle) (by decide)
  have hother := fun extension => ne_place_of_extension extension hfind hthere hsplit hfollow
  refine hwrites.changed.read hread fun place hplace => ?_
  obtain rfl : source = place := Except.ok.inj ((hgrows.find hfind).symm.trans hplace)
  rintro (hsame | ⟨hcss, hsame⟩)
  · rw [hfindPage, hdefault] at hsame
    exact hother _ hpage (Except.ok.inj hsame).symm
  · have hstyle := place_stylesheet hnew' (hwrites.takesSheet hcss) hsame
    rw [hstem] at hstyle
    exact hother _ (hsheet.resolve_left hcss) hstyle

end Source

/-! ### What was written and what was read -/

/-- A command converts to an output, which goes to a path under a title. -/
inductive Converts (network : Network) (files : FileTree) :
    Command → String → Output → String → Prop where
  | build {path : String} {c : Choices} {assetMap : Option String} {response : Response}
      {urls : List (String × String)} {output : Output}
      (hsource : sourceResponse? files path = some response)
      (hmap : assetMap? files assetMap = some urls)
      (hcompile : compile response c.node (c.options urls) = .ok output) :
      Converts network files (.build path c assetMap) (c.output.getD (defaultPage path)) output
        (c.pageTitle response (sourceStem path))
  | fetch {fileKey token base : String} {c : Choices} {mode : AssetMode} {response : Response}
      {output : Output} (hmode : mode ≠ .remote)
      (hfirst : firstPage? network ⟨token, base⟩ fileKey c = some (response, output)) :
      Converts network files (.fetch fileKey token base c mode) (fetchedPage fileKey c) output
        (c.pageTitle response fileKey)
  | remote {fileKey token base : String} {c : Choices} {response : Response}
      {first output : Output} {urls : List (String × String)}
      (hfirst : firstPage? network ⟨token, base⟩ fileKey c = some (response, first))
      (hurls : assetUrls? network ⟨token, base⟩ fileKey first.assets = some urls)
      (hcompile : compile response c.node (c.options urls) = .ok output) :
      Converts network files (.fetch fileKey token base c .remote) (fetchedPage fileKey c) output
        (c.pageTitle response fileKey)

/-- What a build leaves of its inputs when it chooses itself where to write. -/
structure Kept (t t' : FileTree) (path : String) (assetMap : Option String) (output : Output) :
    Prop where
  source : ∀ content, t.read path = .ok content →
    Path.extension? path ≠ some "html".toList →
    output.css = "" ∨ Path.extension? path ≠ some "css".toList → t'.read path = .ok content
  assetMap : ∀ input ∈ assetMap, ∀ content, t.read input = .ok content →
    (∀ place, t'.find input = .ok place → ¬IsOutputPlace t' (defaultPage path) output place) →
    t'.read input = .ok content

section Runs

variable {network : Network} {t t' : FileTree}

theorem saved_of_built {path : String} {c : Choices} {assetMap : Option String}
    (h : built path c assetMap t = (true, t')) :
    ∃ output title,
      Converts network t (.build path c assetMap) (c.output.getD (defaultPage path)) output title ∧
      savePage (c.output.getD (defaultPage path)) output title t = (true, t') := by
  unfold built at h
  cases hsource : sourceResponse? t path with
  | none => simp [hsource] at h
  | some response =>
    rw [hsource, Option.elim_some] at h
    cases hmap : assetMap? t assetMap with
    | none => simp [hmap] at h
    | some urls =>
      rw [hmap, Option.elim_some] at h
      cases hcompile : compile response c.node (c.options urls) with
      | error e =>
        rw [hcompile] at h
        cases h
      | ok output =>
        rw [hcompile] at h
        exact ⟨output, _, .build hsource hmap hcompile, h⟩

theorem saved_of_fetched {fileKey token base : String} {c : Choices} {mode : AssetMode}
    (h : fetched network ⟨token, base⟩ fileKey c t mode = (true, t')) :
    ∃ output title t₁,
      Converts network t (.fetch fileKey token base c mode) (fetchedPage fileKey c) output title ∧
      savePage (fetchedPage fileKey c) output title t₁ = (true, t') := by
  obtain ⟨response, first, hfirst, hcompleted⟩ := completed_of_fetched h
  cases mode with
  | paths => exact ⟨first, _, t, .fetch nofun hfirst, hcompleted⟩
  | download =>
    obtain ⟨urls, t₁, -, -, hsave⟩ := walked_of_completed hcompleted
    exact ⟨first, _, t₁, .fetch nofun hfirst, hsave⟩
  | remote =>
    simp only [completed] at hcompleted
    cases hurls : assetUrls? network ⟨token, base⟩ fileKey first.assets with
    | none =>
      rw [hurls] at hcompleted
      cases hcompleted
    | some urls =>
      rw [hurls] at hcompleted
      simp only at hcompleted
      cases hcompile : compile response c.node (c.options urls) with
      | error e =>
        rw [hcompile] at hcompleted
        cases hcompleted
      | ok output =>
        rw [hcompile] at hcompleted
        exact ⟨output, _, t, .remote hfirst hurls hcompile, hcompleted⟩

end Runs

/-- **What a run that succeeds has written stands there.** -/
theorem holdsOutput_perform (log : Log) (network : Network) (command : Command)
    (files : FileTree) (hwrites : ∀ path node, command ≠ .check path node)
    (hexit : (perform log network command files).exitCode = 0) :
    ∃ page output title, Converts network files command page output title ∧
      HoldsOutput (perform log network command files).world.files page output title ∧
      ∀ path c assetMap, command = .build path c assetMap → c.output = none →
        Kept files (perform log network command files).world.files path assetMap output := by
  cases command with
  | check path node => exact absurd rfl (hwrites path node)
  | fetch fileKey token base c mode =>
    have hfetched := eq_of_exitCode_zero log network (.fetch fileKey token base c mode)
      (runs_fetchPage network ⟨token, base⟩ fileKey c mode files) hexit
    obtain ⟨output, title, t₁, hconverts, hsave⟩ := saved_of_fetched hfetched
    exact ⟨_, output, title, hconverts, (writesPage_of_savePage hsave).holds, nofun⟩
  | build path c assetMap =>
    have hbuilt := eq_of_exitCode_zero log network (.build path c assetMap)
      (runs_buildPage path c assetMap files) hexit
    obtain ⟨output, title, hconverts, hsave⟩ := @saved_of_built network _ _ _ _ _ hbuilt
    have hwritten := writesPage_of_savePage hsave
    refine ⟨_, output, title, hconverts, hwritten.holds, ?_⟩
    rintro path' c' assetMap' hsame hnone
    cases hsame
    rw [hnone, Option.getD_none] at hsave hwritten
    refine ⟨fun content hread hpage hsheet => read_source hsave hread hpage hsheet, ?_⟩
    exact fun input _ content hread hplace => hwritten.changed.read hread hplace

/-- The files before a build: a source with one page, on which there is nothing. -/
def emptySource : FileTree :=
  ⟨[(["d.json"], .file "\x7b\"document\":\x7b\"children\":[\x7b\x7d]\x7d\x7d".toUTF8)], []⟩

/-- A build of it in which nothing is lost. -/
theorem holdsOutput_perform_empty :
    (∀ path node, Command.build "d.json" {} none ≠ .check path node) ∧
    (perform (.ofEnvironment [] 0) .silent (.build "d.json" {} none) emptySource).exitCode = 0 ∧
    ∃ page output title,
      Converts .silent emptySource (.build "d.json" {} none) page output title ∧
      HoldsOutput (perform (.ofEnvironment [] 0) .silent (.build "d.json" {} none)
        emptySource).world.files page output title ∧
      ∀ path c assetMap, Command.build "d.json" {} none = .build path c assetMap →
        c.output = none →
        Kept emptySource (perform (.ofEnvironment [] 0) .silent (.build "d.json" {} none)
          emptySource).world.files path assetMap output := by
  have hwrites : ∀ path node, Command.build "d.json" {} none ≠ .check path node := nofun
  have hexit : (perform (.ofEnvironment [] 0) .silent (.build "d.json" {} none)
      emptySource).exitCode = 0 := by decide +kernel
  exact ⟨hwrites, hexit, holdsOutput_perform _ _ _ _ hwrites hexit⟩

/-! ### A page that is lost -/

/-- In stylesheet mode there is a stylesheet, whatever the page. -/
theorem css_ne_empty {response : Response} {node : Option String} {o : Options} {output : Output}
    (h : compile response node o = .ok output) (ho : o.styleMode = .stylesheet) :
    output.css ≠ "" := by
  unfold compile at h
  cases hroot : response.select node with
  | error e =>
    rw [hroot] at h
    cases h
  | ok root =>
    rw [hroot] at h
    obtain rfl : compileRoot root o = output := Except.ok.inj h
    intro hcss
    have hread := read?_css root o
    rw [hcss] at hread
    have hentries : (pageSheet root o).entries = [] := (Option.some.inj hread).symm
    have honce := (isPageSheet_pageSheet root ho).once
    have hrules : (pageSheet root o).rules = [] := List.map_eq_nil_iff.mp hentries
    rw [Stylesheet.names, hrules] at honce
    cases honce

theorem page_eq_append {output : Output} (title : String) (h : output.css ≠ "") :
    ∃ front back, output.page title = front ++ output.css ++ (back ++ "</body>\n</html>\n") := by
  refine ⟨"<!DOCTYPE html>\n<html>\n<head>\n  <meta charset=\"UTF-8\">\n" ++ "  <title>" ++
    Markup.escapeText title ++ "</title>\n" ++ "  <style>\n", "  </style>\n" ++
    "</head>\n<body>\n" ++ output.html, ?_⟩
  unfold Output.page
  simp only [styleElement, if_neg h, String.append_assoc]

/-- The page contains its stylesheet, and more. -/
theorem page_ne_css {output : Output} (title : String) (h : output.css ≠ "") :
    (output.page title).toUTF8 ≠ output.css.toUTF8 := by
  rw [String.toUTF8_eq_toByteArray, String.toUTF8_eq_toByteArray, Ne, String.toByteArray_inj]
  intro hsame
  obtain ⟨front, back, hpage⟩ := page_eq_append title h
  have hlength := congrArg String.length (hpage.symm.trans hsame)
  have hend : 0 < "</body>\n</html>\n".length := by decide
  simp only [String.length_append] at hlength
  omega

/-- **In stylesheet mode a page with the extension of a stylesheet is lost,** although the run
    succeeds. -/
theorem page_lost (log : Log) (network : Network) {path : String} {c : Choices}
    {assetMap : Option String} {files : FileTree} (hstylesheet : c.stylesheet = true)
    (hextension : Path.extension? (c.output.getD (defaultPage path)) = some "css".toList)
    (hexit : (perform log network (.build path c assetMap) files).exitCode = 0) :
    ∃ output title,
      Converts network files (.build path c assetMap) (c.output.getD (defaultPage path)) output
        title ∧
      (perform log network (.build path c assetMap) files).world.files.read
        (c.output.getD (defaultPage path)) ≠ .ok (output.page title).toUTF8 := by
  have hbuilt := eq_of_exitCode_zero log network (.build path c assetMap)
    (runs_buildPage path c assetMap files) hexit
  obtain ⟨output, title, hconverts, hsave⟩ := @saved_of_built network _ _ _ _ _ hbuilt
  have hcss : output.css ≠ "" := by
    cases hconverts with
    | build hsource hmap hcompile =>
      refine css_ne_empty hcompile ?_
      rw [Choices.options, hstylesheet]
      rfl
  refine ⟨output, title, hconverts, ?_⟩
  rw [(writesPage_of_savePage hsave).holds.lost hcss hextension]
  intro hsame
  exact page_ne_css title hcss (Except.ok.inj hsame).symm

/-- Where there is only the source, a page can be written to `x.css`. -/
theorem savePage_emptySource (output : Output) (title : String) :
    (savePage "x.css" output title emptySource).1 = true := by
  have hpage : ∀ content, emptySource.overwrite "x.css" content =
      (true, emptySource.put ["x.css"] (.file content)) := fun _ => rfl
  have hpath : stylesheetPath "x.css" = "x.css" := by decide
  have hsheet : ∀ content content',
      ((emptySource.put ["x.css"] (.file content)).overwrite "x.css" content').1 = true :=
    fun _ _ => rfl
  rw [savePage, hpage, hpath]
  simp only
  split_ifs
  · rfl
  · exact hsheet _ _

/-- The page of the empty source, if it is to go to `x.css`. -/
theorem lost_page :
    (perform (.ofEnvironment [] 0) .silent
      (.build "d.json" { stylesheet := true, output := some "x.css" } none)
      emptySource).exitCode = 0 ∧
    ∃ output title,
      Converts .silent emptySource
        (.build "d.json" { stylesheet := true, output := some "x.css" } none) "x.css" output title ∧
      (perform (.ofEnvironment [] 0) .silent
        (.build "d.json" { stylesheet := true, output := some "x.css" } none)
        emptySource).world.files.read "x.css" ≠ .ok (output.page title).toUTF8 := by
  have hread : (emptySource.readText "d.json").toOption =
      some "\x7b\"document\":\x7b\"children\":[\x7b\x7d]\x7d\x7d" := by rfl
  have hwritten : Json.written? "\x7b\"document\":\x7b\"children\":[\x7b\x7d]\x7d\x7d" =
      some (.object [("document", .object [("children", .array [.object []])])]) := by rfl
  obtain ⟨response, hsource, root, hroot⟩ : ∃ response,
      sourceResponse? emptySource "d.json" = some response ∧
        ∃ root, response.select none = .ok root := by
    refine ⟨⟨none, some ⟨{}, [Node.blank]⟩, none⟩, ?_, Node.blank, rfl⟩
    rw [sourceResponse?, hread, Option.bind_some, Response.toOption_parse hwritten]
    rfl
  have hbuilt : (built "d.json" { stylesheet := true, output := some "x.css" } none
      emptySource).1 = true := by
    obtain ⟨output, hcompile⟩ : ∃ output, compile response none
        (Choices.options { stylesheet := true, output := some "x.css" } []) = .ok output := by
      rw [compile, hroot]
      exact ⟨_, rfl⟩
    rw [built, hsource, Option.elim_some, assetMap?, Option.elim_some, hcompile]
    exact savePage_emptySource _ _
  have hexit := (perform_of_runs (.ofEnvironment [] 0) .silent
    (.build "d.json" { stylesheet := true, output := some "x.css" } none)
    (runs_buildPage "d.json" _ none emptySource)).2.2
  rw [hbuilt] at hexit
  exact ⟨hexit, page_lost _ _ rfl (by decide) hexit⟩

end DesignMarkup.Command
