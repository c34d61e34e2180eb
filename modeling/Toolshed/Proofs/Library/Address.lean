import Toolshed.Library.Disk
import Toolshed.Lowering.Target
import Toolshed.Token.Lexeme

namespace Toolshed

/-!
# Module paths as addresses

The name of a module says where its file is, on a disk and for scripts that load
one another. Dots or slashes divide an address, and no part has any inside.
-/

/-- The parts of a text between marks. -/
def parts (mark : Char) (text : String) : List String :=
  (text.toList.splitOn mark).map String.ofList

variable {mark : Char} {names : List String}

theorem intercalate_parts (mark : Char) (text : String) :
    (String.singleton mark).intercalate (parts mark text) = text := by
  apply String.toList_inj.mp
  simp [parts]

theorem parts_intercalate (nonempty : names ≠ []) (apart : ∀ name ∈ names, mark ∉ name.toList) :
    parts mark ((String.singleton mark).intercalate names) = names := by
  rw [parts, String.toList_intercalate, String.toList_singleton, List.splitOn_intercalate]
  · simp
  · simpa using apart
  · simpa using nonempty

theorem not_mem_of_mem_splitOn {characters part : List Char}
    (member : part ∈ characters.splitOn mark) : mark ∉ part := by
  induction characters generalizing part with
  | nil => simp_all
  | cons first rest ih =>
    rw [List.splitOn_cons_eq_if_modifyHead] at member
    cases found : rest.splitOn mark <;> grind [List.modifyHead_nil, List.modifyHead_cons]

/-- Letters, digits and underscores, at least one. Every identifier is a word. -/
def IsWord (name : String) : Prop :=
  name ≠ "" ∧ ∀ character ∈ name.toList, Lexeme.isNamePart character = true

theorem IsWord.not_mem {name : String} (isWord : IsWord name)
    (isMark : Lexeme.isNamePart mark = false) : mark ∉ name.toList := by
  intro member
  simp [isWord.2 mark member] at isMark

namespace ModulePath

theorem splitAtDots_eq (characters : List Char) :
    splitAtDots characters = characters.splitOn '.' := by
  induction characters with
  | nil => rfl
  | cons character rest ih =>
    rw [splitAtDots, ih, List.splitOn_cons_eq_if_modifyHead]
    cases found : rest.splitOn '.' with
    | nil => exact absurd found (List.splitOn_ne_nil _ _)
    | cons part others => simp

theorem segments_parse (name : String) : (parse name).segments = parts '.' name := by
  rw [parse, splitAtDots_eq, parts]

theorem text_parse (name : String) : (parse name).text = name := by
  rw [text, segments_parse]
  exact intercalate_parts '.' name

theorem parse_text_iff (path : ModulePath) :
    parse path.text = path ↔
      path.segments ≠ [] ∧ ∀ segment ∈ path.segments, '.' ∉ segment.toList := by
  constructor
  · intro same
    rw [← same, segments_parse]
    refine ⟨by simp [parts], fun segment member => ?_⟩
    obtain ⟨part, isPart, rfl⟩ := List.mem_map.mp member
    rw [String.toList_ofList]
    exact not_mem_of_mem_splitOn isPart
  · rintro ⟨nonempty, apart⟩
    refine congrArg ModulePath.mk (Eq.trans (segments_parse path.text) ?_)
    exact parts_intercalate nonempty apart

theorem isPlain_iff (segment : String) : Library.isPlain segment = true ↔ IsWord segment := by
  have same : ∀ character : Char,
      (character.isAlphanum || decide (character = '_')) = Lexeme.isNamePart character := by
    intro character
    delta Char.isAlphanum Char.isAlpha Char.isUpper Char.isLower
    simp [Lexeme.isNamePart, Lexeme.isNameStart, Lexeme.isDigit, Char.isDigit, Char.le_def]
    grind
  simp [Library.isPlain, IsWord, same]

/-- A library on disk asks for one file and for no other, and answers the text of this file. -/
structure Asks (root file : String) (path : ModulePath) : Prop where
  text : ∀ disk text, disk.read file = .ok text → Library.readFolder disk root path = .text text
  only :
    ∀ disk other : Disk,
      disk.read file = other.read file →
      Library.readFolder disk root path = Library.readFolder other root path

/--
A name stands for one path. On disk it is refused unread, or it stands for one
file below the root.
-/
theorem parse_faithful :
    (∀ name, (parse name).text = name) ∧
      (∀ path,
        parse path.text = path ↔
          path.segments ≠ [] ∧ ∀ segment ∈ path.segments, '.' ∉ segment.toList) ∧
      Function.Injective parse ∧
      (∀ root name,
        (∃ segment ∈ (parse name).segments, ¬IsWord segment) ∧
            (∀ disk, Library.readFolder disk root (parse name) = .absent) ∨
          (∀ segment ∈ (parse name).segments, IsWord segment) ∧
            Asks root
              (Library.inFolder root ("/".intercalate (parse name).segments ++ ".shed"))
              (parse name)) ∧
      ∀ name other,
        (∀ segment ∈ (parse name).segments, IsWord segment) →
        (∀ segment ∈ (parse other).segments, IsWord segment) →
        (parse name).filePath = (parse other).filePath →
        name = other := by
  have injective : Function.Injective parse := Function.LeftInverse.injective text_parse
  refine ⟨text_parse, parse_text_iff, injective, fun root name => ?_, ?_⟩
  · by_cases plain : (parse name).segments.all Library.isPlain = true
    · refine .inr ⟨?_, fun disk text found => ?_, fun disk other same => ?_⟩
      · simpa only [List.all_eq_true, isPlain_iff] using plain
      · simp only [Library.readFolder, filePath, plain, if_true, found]
      · simp only [Library.readFolder, filePath, same]
    · refine .inl ⟨?_, fun disk => by rw [Library.readFolder, if_neg plain]⟩
      simpa [isPlain_iff] using plain
  · intro name other words wordsOther same
    have joined := congrArg (parts '/') (String.append_left_inj _ |>.mp same)
    have whole : ∀ name, (∀ segment ∈ (parse name).segments, IsWord segment) →
        parts '/' ("/".intercalate (parse name).segments) = (parse name).segments := by
      intro name words
      refine parts_intercalate ?_ fun segment member => (words segment member).not_mem rfl
      simp [segments_parse, parts]
    rw [whole name words, whole other wordsOther] at joined
    exact injective (congrArg ModulePath.mk joined)

end ModulePath

/--
Where a path leads from a folder. The name `..` leads one folder up, and nothing
is above the root.
-/
def follow : (folder names : List String) → Option (List String)
  | folder, [] => some folder
  | folder, name :: rest =>
    if name = "." then
      follow folder rest
    else if name = ".." then
      if folder = [] then none else follow folder.dropLast rest
    else
      follow (folder ++ [name]) rest

theorem follow_words (folder : List String) (words : ∀ name ∈ names, IsWord name) :
    follow folder names = some (folder ++ names) := by
  induction names generalizing folder with
  | nil => simp [follow]
  | cons name rest ih =>
    obtain ⟨isWord, others⟩ := List.forall_mem_cons.mp words
    have noDot : '.' ∉ name.toList := isWord.not_mem rfl
    have notHere : name ≠ "." := by
      rintro rfl
      simp at noDot
    have notUp : name ≠ ".." := by
      rintro rfl
      simp at noDot
    rw [follow, if_neg notHere, if_neg notUp, ih _ others, List.append_assoc, List.singleton_append]

theorem follow_up (folder names : List String) {up : Nat} (inside : up ≤ folder.length) :
    follow folder (List.replicate up ".." ++ names) =
      follow (folder.take (folder.length - up)) names := by
  induction up generalizing folder with
  | zero => simp
  | succ up ih =>
    have nonempty : folder ≠ [] := by
      rintro rfl
      simp at inside
    have shorter : up ≤ folder.dropLast.length := by
      rw [List.length_dropLast]
      omega
    rw [List.replicate_succ, List.cons_append, follow, if_neg (by decide), if_pos rfl,
      if_neg nonempty, ih _ shorter, List.dropLast_eq_take, List.take_take, List.length_take]
    congr 2
    omega

namespace ImportStyle

theorem take_shared (first second : List String) {count : Nat}
    (few : count ≤ shared first second) : first.take count = second.take count := by
  fun_induction shared first second generalizing count with
  | case1 name firstRest secondRest ih =>
    cases count with
    | zero => rfl
    | succ count => rw [List.take_succ_cons, List.take_succ_cons, ih (Nat.le_of_succ_le_succ few)]
  | case2 | case3 => simp [Nat.le_zero.mp few]

theorem shared_le (first second : List String) : shared first second ≤ first.length := by
  fun_induction shared first second with
  | case1 name firstRest secondRest ih => exact Nat.succ_le_succ ih
  | case2 | case3 => exact Nat.zero_le _

theorem join_steps (steps : List String) (nonempty : names ≠ []) :
    String.join (steps.map (· ++ "/")) ++ "/".intercalate names =
      "/".intercalate (steps ++ names) := by
  induction steps with
  | nil => simp
  | cons step steps ih =>
    rw [List.cons_append, String.intercalate_cons_of_ne_nil (by simp [nonempty]), ← ih]
    simp [String.append_assoc]

/-- The start of a specifier leads to the last folder on the way that is common. -/
theorem exists_steps (folder : List String) {common : Nat} (inside : common ≤ folder.length) :
    ∃ steps : List String,
      steps ≠ [] ∧ (∀ name ∈ steps, name = "." ∨ name = "..") ∧
        (let up := folder.length - common
          if up = 0 then "./" else String.join (List.replicate up "../")) =
          String.join (steps.map (· ++ "/")) ∧
        ∀ names, follow folder (steps ++ names) = follow (folder.take common) names := by
  dsimp only
  split
  · refine ⟨["."], by simp, by simp, rfl, fun names => ?_⟩
    rw [List.take_of_length_le (by omega)]
    rfl
  · refine ⟨List.replicate (folder.length - common) "..", by simpa, by simp, by simp,
      fun names => ?_⟩
    rw [follow_up _ _ (Nat.sub_le _ _), Nat.sub_sub_self inside]

theorem specifier_leads (importer : ModulePath) {imported : ModulePath}
    (nonempty : imported.segments ≠ []) (words : ∀ name ∈ imported.segments, IsWord name) :
    (∃ step ∈ [".", ".."], ∃ rest, specifier importer imported = step ++ "/" ++ rest) ∧
      follow importer.segments.dropLast (parts '/' (specifier importer imported)) =
        .some imported.segments := by
  unfold specifier
  extract_lets folder common up start
  have few : common ≤ shared folder imported.segments := Nat.min_le_left _ _
  -- The last name is that of a file and never of a folder in common.
  have later : imported.segments.drop common ≠ [] := by
    have positive := List.length_pos_iff.mpr nonempty
    rw [ne_eq, List.drop_eq_nil_iff]
    omega
  have wordsLater : ∀ name ∈ imported.segments.drop common, IsWord name :=
    fun name member => words name (List.mem_of_mem_drop member)
  obtain ⟨steps, moves, areSteps, isStart, leads⟩ :=
    exists_steps folder (Nat.le_trans few (shared_le _ _))
  rw [show start = _ from isStart]
  constructor
  · obtain ⟨step, others, rfl⟩ := List.exists_cons_of_ne_nil moves
    refine ⟨step, by simpa using areSteps step List.mem_cons_self, ?_⟩
    rw [List.map_cons, String.join_cons, String.append_assoc]
    exact ⟨_, rfl⟩
  · have divided : parts '/' ("/".intercalate (steps ++ imported.segments.drop common)) =
        steps ++ imported.segments.drop common := by
      refine parts_intercalate (by simp [later]) fun name member => ?_
      rcases List.mem_append.mp member with isStep | isLater
      · rcases areSteps name isStep with rfl | rfl <;> decide
      · exact (wordsLater name isLater).not_mem rfl
    rw [join_steps _ later, divided, leads, follow_words _ wordsLater, take_shared _ _ few,
      List.take_append_drop]

/--
The path by which a script loads another one leads from its own folder to the file
of the other, and never above the root.
-/
theorem specifier_leads_to_file
    (importer imported : ModulePath)
    (nonempty : imported.segments ≠ [])
    (words : ∀ name ∈ imported.segments, IsWord name) :
    (∃ step ∈ [".", ".."], ∃ rest, specifier importer imported = step ++ "/" ++ rest) ∧
      follow importer.segments.dropLast (parts '/' (specifier importer imported)) =
        .some imported.segments ∧
      ∀ other : ModulePath,
        other.segments ≠ [] →
        (∀ name ∈ other.segments, IsWord name) →
        specifier importer other = specifier importer imported →
        other = imported := by
  obtain ⟨starts, leads⟩ := specifier_leads importer nonempty words
  refine ⟨starts, leads, fun other someOther wordsOther same => ?_⟩
  rw [← same, (specifier_leads importer someOther wordsOther).2, Option.some.injEq] at leads
  exact congrArg ModulePath.mk leads

/-- The file `x/a` is beside the folder `x/a` of the importer. -/
theorem specifier_leads_to_file_beside :
    specifier ⟨["x", "a", "b"]⟩ ⟨["x", "a"]⟩ = "../a" ∧
      follow ["x", "a", "b"].dropLast (parts '/' (specifier ⟨["x", "a", "b"]⟩ ⟨["x", "a"]⟩)) =
        some ["x", "a"] := by
  have plain : ["x", "a"].all Library.isPlain = true := by decide
  have words := fun name member =>
    (ModulePath.isPlain_iff name).mp (List.all_eq_true.mp plain name member)
  exact ⟨by decide +kernel,
    (specifier_leads_to_file ⟨["x", "a", "b"]⟩ ⟨["x", "a"]⟩ (by simp) words).2.1⟩

end ImportStyle

end Toolshed
