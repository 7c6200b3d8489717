/-
Where the files of an app go.

A name that is made from a text keeps its letters and digits, whatever else the text holds: the
words of a text are these characters cut into pieces, none of them empty.  So a type name begins
with a capital or with the letter that is put before a digit, a member name with a small letter,
and everything after that is a letter or a digit.  The paths of an app's files are made of type
names, so each of them is a path of ordinary names; none is refused, and whatever is written lies
below the folder that it is written to.
-/
import Screenwright.Proofs.TypeNames

namespace Screenwright

open Swift

namespace Names

/-! ### Words -/

/-- The runs of a text hold the characters that end none. -/
theorem flatten_runs (p : Char → Bool) (cs : List Char) :
    (Text.runs p cs).flatten = cs.filter fun c => !p c := by
  fun_induction Text.runs p cs with
  | case1 => rfl
  | case2 c cs hc ih => simp [hc, ih]
  | case3 c hc => simp [hc, Text.runs]
  | case4 c hc d cs word rest hd hruns ih => simp_all
  | case5 c hc d cs word rest hd hruns ih => simp_all
  | case6 c hc d cs hruns ih => simp_all

/-- **The words of a text hold its letters and digits.** -/
theorem flatten_words (cs : List Char) : (words cs).flatten = cs.filter Char.isAlphanum := by
  have hruns := flatten_runs (fun c => !c.isAlphanum) cs
  have hcut : List.flatten ∘ cutWords = id := funext flatten_cutWords
  simp only [Bool.not_not] at hruns
  rw [words, List.flatMap_def, List.flatten_flatten, List.map_map, hcut, List.map_id, hruns]

theorem ne_nil_of_mem_cutWords {run : List Char} : ∀ word ∈ cutWords run, word ≠ [] := by
  fun_induction cutWords run with
  | case1 => simp
  | case2 c => simp
  | case3 c d cs hnil ih => simp
  | case4 c d cs word rest hwords hbreak ih =>
      rw [List.forall_mem_cons]
      exact ⟨List.cons_ne_nil _ _, hwords ▸ ih⟩
  | case5 c d cs word rest hwords hbreak ih =>
      rw [hwords, List.forall_mem_cons] at ih
      rw [List.forall_mem_cons]
      exact ⟨List.cons_ne_nil _ _, ih.2⟩

/-- No word is empty. -/
theorem ne_nil_of_mem_words {cs word : List Char} (h : word ∈ words cs) : word ≠ [] := by
  obtain ⟨run, -, hword⟩ := List.mem_flatMap.mp h
  exact ne_nil_of_mem_cutWords word hword

/-- The first word of a text begins with a letter or a digit. -/
theorem exists_of_words {cs word : List Char} {rest : List (List Char)}
    (h : words cs = word :: rest) : ∃ c more, word = c :: more ∧ c.isAlphanum = true := by
  have hmem : word ∈ words cs := by rw [h]; exact List.mem_cons_self
  cases word with
  | nil => exact absurd rfl (ne_nil_of_mem_words hmem)
  | cons c more => exact ⟨c, more, rfl, isAlphanum_of_mem_words hmem c List.mem_cons_self⟩

theorem words_eq_nil_iff {cs : List Char} :
    words cs = [] ↔ ∀ c ∈ cs, ¬ c.isAlphanum = true := by
  rw [← List.filter_eq_nil_iff, ← flatten_words, List.flatten_eq_nil_iff]
  constructor
  · intro h
    simp [h]
  · intro h
    cases hwords : words cs with
    | nil => rfl
    | cons word rest =>
        have hmem : word ∈ words cs := by rw [hwords]; exact List.mem_cons_self
        exact absurd (h word hmem) (ne_nil_of_mem_words hmem)

/-! ### The forms of names -/

/-- A name that begins with a character of some sort and goes on with letters and digits. -/
def Formed (first : Char → Bool) (name : String) : Prop :=
  ∃ c rest, name.toList = c :: rest ∧ first c = true ∧ ∀ d ∈ rest, d.isAlphanum = true

variable {first : Char → Bool} {name : String}

/-- A name of letters and digits, of which the first is one of some sort. -/
theorem formed_of_isAlphanum {c : Char} {rest : List Char}
    (hall : ∀ d ∈ name.toList, d.isAlphanum = true) (hname : name.toList = c :: rest)
    (hfirst : first c = true) : Formed first name := by
  rw [hname, List.forall_mem_cons] at hall
  exact ⟨c, rest, hname, hfirst, hall.2⟩

/-- A word of the library is formed if its characters are. -/
theorem formed_of_all {c : Char} {rest : List Char}
    (h : (first c && rest.all Char.isAlphanum) = true) :
    Formed first (String.ofList (c :: rest)) := by
  rw [Bool.and_eq_true, List.all_eq_true] at h
  exact ⟨c, rest, String.toList_ofList, h⟩

theorem Formed.append {more : String} (h : Formed first name)
    (hmore : ∀ d ∈ more.toList, d.isAlphanum = true) : Formed first (name ++ more) := by
  obtain ⟨c, rest, hname, hfirst, hrest⟩ := h
  refine ⟨c, rest ++ more.toList, by rw [String.toList_append, hname]; rfl, hfirst, ?_⟩
  rw [List.forall_mem_append]
  exact ⟨hrest, hmore⟩

theorem isUpper_toUpper {c : Char} (h : c.isAlphanum = true) (hdigit : ¬ c.toUpper.isDigit = true) :
    c.toUpper.isUpper = true :=
  forall_ascii (p := fun c => c.isAlphanum = true → ¬ c.toUpper.isDigit = true →
    c.toUpper.isUpper = true) (by decide +kernel) (toNat_lt_of_isAlphanum h) h hdigit

theorem isLower_toLower {c : Char} (h : c.isAlphanum = true) (hdigit : ¬ c.toLower.isDigit = true) :
    c.toLower.isLower = true :=
  forall_ascii (p := fun c => c.isAlphanum = true → ¬ c.toLower.isDigit = true →
    c.toLower.isLower = true) (by decide +kernel) (toNat_lt_of_isAlphanum h) h hdigit

/-- What is made of the words of a text begins with the first letter or digit of the text. -/
theorem exists_camel {cs : List Char} (h : words cs ≠ []) :
    ∃ (c : Char) (upper lower : List Char), c.isAlphanum = true ∧
      upperCamel cs = c.toUpper :: upper ∧ lowerCamel cs = c.toLower :: lower := by
  cases hwords : words cs with
  | nil => exact absurd hwords h
  | cons word rest =>
      obtain ⟨c, more, rfl, hc⟩ := exists_of_words hwords
      exact ⟨c, _, _, hc, by rw [upperCamel, hwords]; rfl, by rw [lowerCamel, hwords]; rfl⟩

/-- **A text has a type name exactly if it has a letter or a digit.** -/
theorem isSome_typeName?_iff {raw : String} :
    (typeName? raw).isSome ↔ ∃ c ∈ raw.toList, c.isAlphanum = true := by
  have hwords : (typeName? raw).isSome ↔ words raw.toList ≠ [] := by
    rw [typeName?, Option.isSome_map, typeNameChars]
    constructor
    · intro hsome hnil
      rw [upperCamel, hnil] at hsome
      cases hsome
    · intro hne
      obtain ⟨c, upper, -, -, hupper, -⟩ := exists_camel hne
      rw [hupper]
      rfl
  rw [hwords, Ne, words_eq_nil_iff]
  simp only [not_forall, not_not, exists_prop]

/-- **A type name is a capital followed by letters and digits.** -/
theorem formed_of_typeName? {raw : String} (h : typeName? raw = some name) :
    Formed Char.isUpper name := by
  have hall := isAlphanum_of_mem_typeName? h
  obtain ⟨cs, hcs, rfl⟩ := Option.map_eq_some_iff.mp h
  have hne : words raw.toList ≠ [] := by
    intro hnil
    rw [typeNameChars, upperCamel, hnil] at hcs
    cases hcs
  obtain ⟨c, upper, -, hc, hupper, -⟩ := exists_camel hne
  rw [typeNameChars, hupper, Option.some.injEq] at hcs
  subst hcs
  rw [String.toList_ofList] at hall
  split at hall
  next hdigit =>
    rw [if_pos hdigit]
    exact formed_of_isAlphanum (by rwa [String.toList_ofList]) (String.toList_ofList) rfl
  next hdigit =>
    rw [if_neg hdigit]
    exact formed_of_isAlphanum (by rwa [String.toList_ofList]) (String.toList_ofList)
      (isUpper_toUpper hc hdigit)

/-- **A member name is a small letter followed by letters and digits.** -/
theorem formed_memberName (raw : String) : Formed Char.isLower (memberName raw) := by
  have hall := isAlphanum_of_mem_memberName raw
  by_cases hne : words raw.toList = []
  · have hname : (memberName raw).toList = 'v' :: "alue".toList := by
      rw [memberName, String.toList_ofList, memberNameChars, lowerCamel, hne]
      rfl
    exact formed_of_isAlphanum hall hname rfl
  · obtain ⟨c, -, lower, hc, -, hlower⟩ := exists_camel hne
    have hname : (memberName raw).toList =
        if c.toLower.isDigit then 'n' :: c.toLower :: lower else c.toLower :: lower := by
      rw [memberName, String.toList_ofList, memberNameChars, hlower]
    split at hname
    · exact formed_of_isAlphanum hall hname rfl
    next hdigit => exact formed_of_isAlphanum hall hname (isLower_toLower hc hdigit)

example : memberName "Note-Detail" = "noteDetail" := by decide

theorem formed_appFolder (appName : String) : Formed Char.isUpper (appFolder appName) := by
  unfold appFolder
  cases h : typeName? appName with
  | none => exact formed_of_all rfl
  | some name => exact formed_of_typeName? h

theorem formed_appTypeName (appName : String) : Formed Char.isUpper (appTypeName appName) :=
  (formed_appFolder appName).append
    (List.all_eq_true.mp (by decide : "App".toList.all Char.isAlphanum = true))

end Names

theorem Screen.formed_viewType (screen : Screen) :
    Names.Formed Char.isUpper screen.viewType := by
  refine Names.Formed.append ?_
    (List.all_eq_true.mp (by decide : "View".toList.all Char.isAlphanum = true))
  cases hname : Names.typeName? screen.name with
  | some type => exact Names.formed_of_typeName? hname
  | none =>
      cases hid : Names.typeName? screen.id with
      | some type => exact Names.formed_of_typeName? hid
      | none => exact Names.formed_of_all rfl

/-! ### Paths -/

/-- The paths of an app's files, all in one folder: of a view, of a data model and of the entry. -/
inductive SourcePath (folder : String) : String → Prop
  | view {type : String} (h : Names.Formed Char.isUpper type) :
    SourcePath folder (folder ++ "/Views/" ++ type ++ ".swift")
  | model {type : String} (h : Names.Formed Char.isUpper type) :
    SourcePath folder (folder ++ "/Models/" ++ type ++ ".swift")
  | entry {type : String} (h : Names.Formed Char.isUpper type) :
    SourcePath folder (folder ++ "/" ++ type ++ ".swift")

theorem Generate.Run.sourcePath {app : AppDefinition} {catalog : Catalog}
    {config : GeneratorConfig} {out : GeneratedApp} {types : List DataType}
    {trees : List NormalTree} {views : List ScreenView} {entry : AppEntry}
    (h : Run app catalog config out types trees views entry) :
    ∀ file ∈ out.files, SourcePath (Names.appFolder app.config.name) file.path := by
  intro file hfile
  have hpath := List.mem_map_of_mem (f := SourceFile.path) hfile
  rw [h.map_path_files, List.mem_append, List.mem_append, List.mem_singleton] at hpath
  rcases hpath with (hpath | hpath) | hpath
  · obtain ⟨type, htype, heq⟩ := List.mem_map.mp hpath
    obtain ⟨screen, -, rfl⟩ := List.mem_map.mp htype
    exact heq ▸ .view screen.formed_viewType
  · obtain ⟨name, hname, heq⟩ := List.mem_map.mp hpath
    obtain ⟨type, htype, rfl⟩ := List.mem_map.mp hname
    obtain ⟨model, -, hof⟩ := h.exists_typeOf (List.mem_append_left _ htype)
    exact heq ▸ .model (Names.formed_of_typeName? hof.name)
  · exact hpath ▸ .entry (Names.formed_appTypeName app.config.name)

/-! ### Writing -/

namespace Command

/-- A path of ordinary names is not refused. -/
theorem staysInside_of_ordinary {path : String}
    (h : ∀ name ∈ Text.segments '/' path, FileTree.Ordinary name) : staysInside path = true := by
  have hstart : Text.startsWith "/" path = false := by
    by_contra hslash
    rw [Bool.not_eq_false, Text.startsWith, List.isPrefixOf_iff_prefix] at hslash
    obtain ⟨rest, hrest⟩ := hslash
    have hempty : "" ∈ Text.segments '/' path := by
      rw [Text.segments, ← hrest]
      exact List.mem_cons_self
    exact (h "" hempty).nonempty rfl
  have hhead : (Text.segments '/' path).head? ≠ some "." := by
    intro heq
    exact (h "." (List.mem_of_head? heq)).here rfl
  have hup : ".." ∉ Text.segments '/' path := fun hmem => (h ".." hmem).up rfl
  simp [staysInside, hstart, hhead, hup]

/-- **Files whose paths lead inside are not refused.** -/
theorem not_outside_of_writeFiles {folder : String} {files : List SourceFile}
    {result : Except CommandError Unit} {after : FileTree}
    (hinside : ∀ file ∈ files, staysInside file.path = true) :
    ∀ {tree : FileTree}, runOn tree (writeFiles FileTree.disk folder files) = (result, after) →
      ∀ path, result ≠ .error (.outside path) := by
  induction files with
  | nil =>
      rintro tree ⟨⟩ path ⟨⟩
  | cons file files ih =>
      intro tree h path heq
      rw [List.forall_mem_cons] at hinside
      have hstep : runOn tree (writeFile FileTree.disk folder file >>= fun _ =>
          writeFiles FileTree.disk folder files) = (result, after) := h
      cases hfirst : runOn tree (writeFile FileTree.disk folder file) with
      | mk outcome between =>
          rcases put_of_writeFile hfirst with ⟨_, _, rfl, rfl⟩ | ⟨e, rfl, rfl, hrefused⟩
          · rw [runOn_bind_of_ok hfirst] at hstep
            exact ih hinside.2 hstep path heq
          · rw [runOn_bind_of_error hfirst] at hstep
            cases hstep
            have hfalse := hrefused path (by simpa using heq)
            rw [hinside.1] at hfalse
            cases hfalse

/-- **What is written lies below the folder**, at the path of one of the files. -/
theorem exists_of_written {folder : String} {files : List SourceFile}
    {result : Except CommandError Unit} {tree after : FileTree} {place : List String}
    (hordinary : ∀ file ∈ files, ∀ name ∈ Text.segments '/' file.path, FileTree.Ordinary name)
    (h : runOn tree (writeFiles FileTree.disk folder files) = (result, after))
    (hplace : after.file? place ≠ tree.file? place) :
    ∃ base, FileTree.place? folder = some base ∧
      ∃ file ∈ files, place = base ++ Text.segments '/' file.path := by
  obtain ⟨file, hfile, hleads⟩ : ∃ file ∈ files,
      FileTree.place? (below folder file.path) = some place := by
    by_contra hnone
    exact hplace (file?_of_writeFiles h fun file hfile hleads => hnone ⟨file, hfile, hleads⟩)
  obtain ⟨base, hbase, heq⟩ := FileTree.exists_place?_of_below (hordinary file hfile) hleads
  exact ⟨base, hbase, file, hfile, heq⟩

end Command

/-- **Names are formed, and files stay where they are written to.**  A text has a type name exactly
if it has a letter or a digit; a type name is a capital, and a member name a small letter, followed
by letters and digits.  The files of a generated app, over any catalog, lie in one folder, at paths
made of such type names.  Writing them below any folder refuses none of them, and nothing outside
of that folder changes. -/
theorem sources_stay_inside :
    (∀ raw, ((Names.typeName? raw).isSome ↔ ∃ c ∈ raw.toList, c.isAlphanum = true) ∧
      (∀ name, Names.typeName? raw = some name → Names.Formed Char.isUpper name) ∧
      Names.Formed Char.isLower (Names.memberName raw)) ∧
    ∀ (app : AppDefinition) (catalog : Catalog) (config : GeneratorConfig) (out : GeneratedApp),
      generate app catalog config = .ok out →
      (∃ folder, Names.Formed Char.isUpper folder ∧
        ∀ file ∈ out.files, SourcePath folder file.path ∧ Command.staysInside file.path = true) ∧
      ∀ target tree result after,
        Command.runOn tree (Command.writeFiles FileTree.disk target out.files) = (result, after) →
        (∀ path, result ≠ .error (.outside path)) ∧
        ∀ place, after.file? place ≠ tree.file? place →
          ∃ base, FileTree.place? target = some base ∧
            ∃ file ∈ out.files, place = base ++ Text.segments '/' file.path := by
  refine ⟨fun raw => ⟨Names.isSome_typeName?_iff, fun _ => Names.formed_of_typeName?,
    Names.formed_memberName raw⟩, fun app catalog config out h => ?_⟩
  obtain ⟨types, trees, views, entry, hrun⟩ := Generate.exists_run h
  have hordinary := hrun.ordinary_files
  have hinside : ∀ file ∈ out.files, Command.staysInside file.path = true :=
    fun file hfile => Command.staysInside_of_ordinary (hordinary file hfile)
  refine ⟨⟨_, Names.formed_appFolder app.config.name, fun file hfile => ?_⟩, ?_⟩
  · exact ⟨hrun.sourcePath file hfile, hinside file hfile⟩
  · intro target tree result after hwrite
    exact ⟨Command.not_outside_of_writeFiles hinside hwrite,
      fun place hplace => Command.exists_of_written hordinary hwrite hplace⟩

/-- The shelf is generated; and a name that begins with a digit. -/
theorem sources_of_shelf :
    Names.Formed Char.isUpper "N2Fast" ∧
    ∃ out, generate Generate.shelf Catalog.standard .standard = .ok out ∧
      (∃ folder, Names.Formed Char.isUpper folder ∧
        ∀ file ∈ out.files, SourcePath folder file.path ∧ Command.staysInside file.path = true) ∧
      ∀ target tree result after,
        Command.runOn tree (Command.writeFiles FileTree.disk target out.files) = (result, after) →
        (∀ path, result ≠ .error (.outside path)) ∧
        ∀ place, after.file? place ≠ tree.file? place →
          ∃ base, FileTree.place? target = some base ∧
            ∃ file ∈ out.files, place = base ++ Text.segments '/' file.path := by
  obtain ⟨hnames, hfiles⟩ := sources_stay_inside
  have haccepts : Generate.accepts Generate.shelf .standard = true := by decide +kernel
  obtain ⟨out, hout⟩ := Generate.exists_generate_of_accepts haccepts
  exact ⟨(hnames "2 fast").2.1 "N2Fast" (by decide), out, hout,
    hfiles Generate.shelf Catalog.standard .standard out hout⟩

end Screenwright
