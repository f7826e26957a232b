import Mathlib.Data.List.Induction
import TemplateMarkup.Command.Plan
import TemplateMarkup.Proofs.Files.Writing
import TemplateMarkup.Proofs.Text.Utf8

/-! The command answers for all its files at once, or reports the first problem and leaves
everything as it is. What is read from the disk, what may be wrong with it, and which problem comes
first is said here by relations; the command finds just what they say. -/
namespace TemplateMarkup

/-- Settings with those that an invocation gives in their place. -/
def Invocation.override (i : Invocation) (base : Settings) : Settings :=
  { base with
    defaultTag := i.defaultTag.getD base.defaultTag
    tabSize := i.tabSize.getD base.tabSize
    encoding := i.encoding <|> base.encoding }

namespace Disk

variable {disk : Disk} {i : Invocation} {settings : Settings} {path : String}
  {paths before after : List String} {members : List (String × Json)} {failure : Failure}
  {tree : Node}

/-! The configuration. -/

/-- What a configuration file states. -/
def ConfigStates (disk : Disk) (path : String) (settings : Settings) : Prop :=
  ∃ text, disk.contents path = .ok (utf8 text) ∧ Settings.read text = .ok settings

/-- Why a configuration file states nothing. -/
inductive ConfigProblem (disk : Disk) (path : String) : Failure → Prop
  | unreadable {fault : PathFault} (stuck : disk.contents path = .error fault) :
      ConfigProblem disk path (.configUnreadable fault)
  | notText {bytes : List UInt8} (holds : disk.contents path = .ok bytes)
      (none : ∀ text, bytes ≠ utf8 text) : ConfigProblem disk path .configNotText
  | invalid {text : String} {category : Category} (holds : disk.contents path = .ok (utf8 text))
      (refused : Settings.read text = .error category) :
      ConfigProblem disk path (.configInvalid text category)

theorem readSettings_ok :
    disk.readSettings path = .ok settings ↔ disk.ConfigStates path settings := by
  unfold readSettings ConfigStates
  simp only [bind_eq_ok, mapError_eq_ok, decodeUtf8_eq_ok]
  constructor
  · rintro ⟨_, holds, text, rfl, stated⟩
    exact ⟨_, holds, stated⟩
  · rintro ⟨text, holds, stated⟩
    exact ⟨_, holds, text.toList, by rw [String.ofList_toList], by rwa [String.ofList_toList]⟩

theorem readSettings_error :
    disk.readSettings path = .error failure ↔ disk.ConfigProblem path failure := by
  unfold readSettings
  simp only [bind_eq_error, mapError_eq_ok, mapError_eq_error, decodeUtf8_eq_ok]
  constructor
  · rintro (⟨fault, stuck, rfl⟩ | ⟨bytes, holds, undecoded | refused⟩)
    · exact .unreadable stuck
    · obtain ⟨fault, stuck, rfl⟩ := undecoded
      refine .notText holds ?_
      rintro text rfl
      rw [decodeUtf8_utf8] at stuck
      cases stuck
    · obtain ⟨text, rfl, category, refused, rfl⟩ := refused
      exact .invalid holds refused
  · rintro (⟨stuck⟩ | ⟨holds, none⟩ | @⟨text, category, holds, refused⟩)
    · exact .inl ⟨_, stuck, rfl⟩
    · obtain ⟨fault, stuck, -⟩ := decodeUtf8_error none
      exact .inr ⟨_, holds, .inl ⟨fault, stuck, rfl⟩⟩
    · refine .inr ⟨_, holds, .inr ⟨text.toList, ?_⟩⟩
      rw [String.ofList_toList]
      exact ⟨rfl, category, refused, rfl⟩

/-- The configuration file of an invocation: the one it names, or else the usual one if it is
there. -/
def configPath (disk : Disk) (i : Invocation) : Option String :=
  i.config <|> if disk.isFile defaultConfig then some defaultConfig else none

/-- The settings that an invocation starts from are stated by its configuration file. Without one
they are the defaults. -/
def BaseSettings (disk : Disk) (i : Invocation) (base : Settings) : Prop :=
  (∀ path, disk.configPath i = some path → disk.ConfigStates path base) ∧
    (disk.configPath i = none → base = {})

/-- The settings for an invocation. -/
def Configured (disk : Disk) (i : Invocation) (settings : Settings) : Prop :=
  ∃ base, disk.BaseSettings i base ∧ settings = i.override base

theorem settingsFor_eq (disk : Disk) (i : Invocation) :
    disk.settingsFor i =
      (match disk.configPath i with
        | some path => disk.readSettings path
        | none => .ok {}).map i.override := by
  unfold settingsFor configPath
  cases i.config with
  | some path => rfl
  | none =>
    cases disk.isFile defaultConfig <;> rfl

theorem settingsFor_ok : disk.settingsFor i = .ok settings ↔ disk.Configured i settings := by
  rw [settingsFor_eq, map_eq_ok, Configured]
  refine exists_congr fun base => and_congr ?_ eq_comm
  unfold BaseSettings
  cases disk.configPath i with
  | some path => simp [readSettings_ok]
  | none => simp [eq_comm]

theorem settingsFor_error :
    disk.settingsFor i = .error failure ↔
      ∃ path, disk.configPath i = some path ∧ disk.ConfigProblem path failure := by
  rw [settingsFor_eq, map_eq_error]
  cases disk.configPath i with
  | some path => simp [readSettings_error]
  | none => simp

/-! The files. -/

/-- A file is there to be read, and its bytes are read as a tree. -/
def FileTree (disk : Disk) (settings : Settings) (path : String) (tree : Node) : Prop :=
  ∃ bytes, disk.contents path = .ok bytes ∧
    parseBytes (settings.withFileName path) bytes = .ok tree

/-- Why there is no tree of a file. -/
inductive FileProblem (disk : Disk) (settings : Settings) (path : String) : Failure → Prop
  | unreadable {fault : PathFault} (stuck : disk.contents path = .error fault) :
      FileProblem disk settings path (.unreadable path fault)
  | refused {bytes : List UInt8} {refusal : Refusal} (holds : disk.contents path = .ok bytes)
      (refused : parseBytes (settings.withFileName path) bytes = .error refusal) :
      FileProblem disk settings path (.refused path refusal)

theorem readTree_ok :
    disk.readTree settings path = .ok tree ↔ disk.FileTree settings path tree := by
  unfold readTree FileTree
  simp only [bind_eq_ok, mapError_eq_ok]

theorem readTree_error :
    disk.readTree settings path = .error failure ↔ disk.FileProblem settings path failure := by
  unfold readTree
  simp only [bind_eq_error, mapError_eq_ok, mapError_eq_error]
  constructor
  · rintro (⟨fault, stuck, rfl⟩ | ⟨bytes, holds, refusal, refused, rfl⟩)
    · exact .unreadable stuck
    · exact .refused holds refused
  · rintro (⟨stuck⟩ | ⟨holds, refused⟩)
    · exact .inl ⟨_, stuck, rfl⟩
    · exact .inr ⟨_, holds, _, refused, rfl⟩

/-- A file more is read last. Its path is put behind the others if it is new. -/
theorem readTrees_concat (disk : Disk) (settings : Settings) (paths : List String)
    (path : String) :
    disk.readTrees settings (paths ++ [path]) =
      (do
        let members ← disk.readTrees settings paths
        let tree ← disk.readTree settings path
        return if members.any (·.1 == path) then members
          else members ++ [(path, tree.toJson)]) := by
  unfold readTrees
  rw [List.foldlM_append]
  simp only [List.foldlM_cons, List.foldlM_nil, bind_pure]

/-- The members of an answer: each path once, where it first stood, with the JSON of its tree. -/
structure Members (disk : Disk) (settings : Settings) (paths : List String)
    (members : List (String × Json)) : Prop where
  keys : members.map Prod.fst = paths.eraseDups
  values : ∀ path value, (path, value) ∈ members →
    ∃ tree, disk.FileTree settings path tree ∧ value = tree.toJson

theorem Members.concat (h : disk.Members settings paths members)
    (read : disk.FileTree settings path tree) :
    disk.Members settings (paths ++ [path])
      (if members.any (·.1 == path) then members else members ++ [(path, tree.toJson)]) := by
  have known : members.any (·.1 == path) = true ↔ path ∈ paths := by
    rw [← List.mem_eraseDups, ← h.keys, List.any_eq_true, List.mem_map]
    simp only [beq_iff_eq]
  split
  · next old =>
    refine ⟨?_, h.values⟩
    rw [List.eraseDups_append, List.removeAll, List.filter_singleton, h.keys]
    simp [known.1 old]
  · next new =>
    constructor
    · rw [List.map_append, List.eraseDups_append, List.removeAll, List.filter_singleton, h.keys]
      simp [mt known.2 new, List.eraseDups_cons]
    · intro key value mem
      obtain mem | last := List.mem_append.1 mem
      · exact h.values key value mem
      · cases List.mem_singleton.1 last
        exact ⟨tree, read, rfl⟩

theorem Members.exists_tree (h : disk.Members settings paths members) (mem : path ∈ paths) :
    ∃ tree, disk.FileTree settings path tree := by
  have key : path ∈ members.map Prod.fst := by
    rw [h.keys, List.mem_eraseDups]
    exact mem
  obtain ⟨⟨_, value⟩, member, rfl⟩ := List.mem_map.1 key
  obtain ⟨tree, read, -⟩ := h.values _ _ member
  exact ⟨tree, read⟩

/-- What is reported of the first of some files that has a problem. -/
def FirstFaulty (disk : Disk) (settings : Settings) (paths : List String) (failure : Failure) :
    Prop :=
  ∃ before path after, paths = before ++ path :: after ∧
    (∀ earlier ∈ before, ∃ tree, disk.FileTree settings earlier tree) ∧
    disk.FileProblem settings path failure

theorem FirstFaulty.ne_nil (first : disk.FirstFaulty settings paths failure) : paths ≠ [] := by
  obtain ⟨before, path, after, rfl, -⟩ := first
  exact List.append_ne_nil_of_right_ne_nil _ (List.cons_ne_nil _ _)

/-- All files are read, or the first that has a problem is reported. -/
theorem readTrees_cases (disk : Disk) (settings : Settings) (paths : List String) :
    (∃ members, disk.readTrees settings paths = .ok members ∧
      disk.Members settings paths members) ∨
    ∃ failure, disk.readTrees settings paths = .error failure ∧
      disk.FirstFaulty settings paths failure := by
  -- Files are taken from the front, so what is known of those already read is known of a prefix.
  induction paths using List.reverseRecOn with
  | nil => exact .inl ⟨[], rfl, rfl, by simp⟩
  | append_singleton paths path ih =>
    rw [readTrees_concat]
    obtain ⟨members, all, h⟩ | ⟨failure, stuck, before, first, after, rfl, fine, problem⟩ := ih
    · cases read : disk.readTree settings path with
      | ok tree =>
        refine .inl ⟨_, ?_, h.concat (readTree_ok.1 read)⟩
        rw [all]
        rfl
      | error failure =>
        refine .inr ⟨failure, ?_, paths, path, [], rfl, fun _ => h.exists_tree, ?_⟩
        · rw [all]
          rfl
        · exact readTree_error.1 read
    · refine .inr ⟨failure, ?_, before, first, after ++ [path], ?_, fine, problem⟩
      · rw [stuck]
        rfl
      · rw [List.append_assoc, List.cons_append]

theorem FileTree.not_problem (read : disk.FileTree settings path tree) :
    ¬ disk.FileProblem settings path failure := by
  intro problem
  rw [← readTree_error, readTree_ok.2 read] at problem
  cases problem

theorem readTrees_ok (h : disk.readTrees settings paths = .ok members) :
    disk.Members settings paths members := by
  obtain ⟨members', all, done⟩ | ⟨failure, stuck, -⟩ := readTrees_cases disk settings paths
  · rw [h] at all
    cases all
    exact done
  · rw [h] at stuck
    cases stuck

theorem readTrees_error :
    disk.readTrees settings paths = .error failure ↔
      disk.FirstFaulty settings paths failure := by
  constructor
  · intro h
    obtain ⟨members, all, -⟩ | ⟨failure', stuck, first⟩ := readTrees_cases disk settings paths
    · rw [h] at all
      cases all
    · rw [h] at stuck
      cases stuck
      exact first
  · rintro ⟨before, path, after, rfl, fine, problem⟩
    obtain ⟨members, all, -⟩ | ⟨_, -, _, earlier, _, rfl, -, faulty⟩ :=
      readTrees_cases disk settings before
    · unfold readTrees at all ⊢
      rw [List.foldlM_append, all]
      refine bind_eq_error.2 (.inr ⟨members, rfl, ?_⟩)
      rw [List.foldlM_cons, readTree_error.2 problem]
      rfl
    · obtain ⟨tree, read⟩ := fine earlier (by simp)
      exact absurd faulty read.not_problem

/-! The answer. -/

/-- The first problem of an invocation: one of its configuration, or else one of finding its files,
of which there may be none, or else one of the first file that has any. -/
inductive FirstProblem (disk : Disk) (i : Invocation) : Failure → Prop
  | config {path : String} {failure : Failure} (named : disk.configPath i = some path)
      (problem : disk.ConfigProblem path failure) : FirstProblem disk i failure
  | unlistable {settings : Settings} {fault : PathFault} (configured : disk.Configured i settings)
      (stuck : disk.listTemplates i.inputs = .error fault) :
      FirstProblem disk i (.unlistable fault)
  | noInputs {settings : Settings} (configured : disk.Configured i settings)
      (none : disk.listTemplates i.inputs = .ok []) : FirstProblem disk i .noInputs
  | file {settings : Settings} {paths : List String} {failure : Failure}
      (configured : disk.Configured i settings) (listed : disk.listTemplates i.inputs = .ok paths)
      (first : disk.FirstFaulty settings paths failure) : FirstProblem disk i failure

/-- Something is wrong with the configuration, with finding the files, or with some file. -/
def HasProblem (disk : Disk) (i : Invocation) : Prop :=
  (∃ path failure, disk.configPath i = some path ∧ disk.ConfigProblem path failure) ∨
  (∃ fault, disk.listTemplates i.inputs = .error fault) ∨
  disk.listTemplates i.inputs = .ok [] ∨
  ∃ settings paths, disk.Configured i settings ∧ disk.listTemplates i.inputs = .ok paths ∧
    ∃ path ∈ paths, ∃ failure, disk.FileProblem settings path failure

theorem answer_eq (i : Invocation) (disk : Disk) :
    i.answer disk = disk.settingsFor i >>= fun settings =>
      (disk.listTemplates i.inputs).mapError .unlistable >>= fun paths =>
        if paths = [] then .error .noInputs
        else (disk.readTrees settings paths).map fun members =>
          ((Json.object members).pretty ++ "\n", paths.length) := by
  unfold Invocation.answer
  refine congrArg _ (funext fun settings => congrArg _ (funext fun paths => ?_))
  cases paths with
  | nil => rfl
  | cons path paths =>
    rw [if_neg (List.cons_ne_nil _ _)]
    cases disk.readTrees settings (path :: paths) <;> rfl

theorem answer_error : i.answer disk = .error failure ↔ disk.FirstProblem i failure := by
  rw [answer_eq, bind_eq_error, settingsFor_error]
  simp only [settingsFor_ok, bind_eq_error, mapError_eq_ok, mapError_eq_error]
  constructor
  · rintro (⟨path, named, problem⟩ | ⟨settings, configured, stuck | ⟨paths, listed, stuck⟩⟩)
    · exact .config named problem
    · obtain ⟨fault, stuck, rfl⟩ := stuck
      exact .unlistable configured stuck
    · split at stuck
      · next none =>
        cases stuck
        subst none
        exact .noInputs configured listed
      · rw [map_eq_error, readTrees_error] at stuck
        exact .file configured listed stuck
  · rintro (⟨named, problem⟩ | ⟨configured, stuck⟩ | ⟨configured, none⟩ |
      ⟨configured, listed, first⟩)
    · exact .inl ⟨_, named, problem⟩
    · exact .inr ⟨_, configured, .inl ⟨_, stuck, rfl⟩⟩
    · exact .inr ⟨_, configured, .inr ⟨[], none, if_pos rfl⟩⟩
    · refine .inr ⟨_, configured, .inr ⟨_, listed, ?_⟩⟩
      rw [if_neg first.ne_nil, map_eq_error, readTrees_error]
      exact first

theorem answer_ok {text : String} {count : Nat} (h : i.answer disk = .ok (text, count)) :
    ∃ settings paths members, disk.Configured i settings ∧
      disk.listTemplates i.inputs = .ok paths ∧ paths ≠ [] ∧
      disk.Members settings paths members ∧
      text = (Json.object members).pretty ++ "\n" ∧ count = paths.length := by
  rw [answer_eq] at h
  obtain ⟨settings, configured, h⟩ := bind_eq_ok.1 h
  obtain ⟨paths, listed, h⟩ := bind_eq_ok.1 h
  split at h
  · cases h
  · next some =>
    obtain ⟨members, all, same⟩ := map_eq_ok.1 h
    cases same
    exact ⟨settings, paths, members, settingsFor_ok.1 configured, mapError_eq_ok.1 listed, some,
      readTrees_ok all, rfl, rfl⟩

theorem Configured.no_config_problem (configured : disk.Configured i settings)
    (named : disk.configPath i = some path) : ¬ disk.ConfigProblem path failure := by
  intro problem
  have stuck := settingsFor_error.2 ⟨path, named, problem⟩
  rw [settingsFor_ok.2 configured] at stuck
  cases stuck

theorem Configured.unique {other : Settings} (configured : disk.Configured i settings)
    (configured' : disk.Configured i other) : settings = other := by
  rw [← settingsFor_ok] at configured configured'
  rw [configured] at configured'
  exact Except.ok.inj configured'

theorem hasProblem_iff : disk.HasProblem i ↔ ∃ failure, disk.FirstProblem i failure := by
  constructor
  · intro problem
    cases answered : i.answer disk with
    | error failure => exact ⟨failure, answer_error.1 answered⟩
    | ok answer =>
      -- An answer needs settings, a list of files that is not empty, and a tree for each file.
      obtain ⟨settings, paths, members, configured, listed, some, all, -⟩ := answer_ok answered
      unfold HasProblem at problem
      rw [listed] at problem
      obtain ⟨path, failure, named, faulty⟩ | ⟨fault, ⟨⟩⟩ | none | faulty := problem
      · exact absurd faulty (configured.no_config_problem named)
      · exact absurd (Except.ok.inj none) some
      · obtain ⟨settings', _, configured', ⟨⟩, path, mem, failure, faulty⟩ := faulty
        obtain rfl := configured.unique configured'
        obtain ⟨tree, read⟩ := all.exists_tree mem
        exact absurd faulty read.not_problem
  · rintro ⟨failure, ⟨named, problem⟩ | ⟨-, stuck⟩ | ⟨-, none⟩ | ⟨configured, listed, first⟩⟩
    · exact .inl ⟨_, _, named, problem⟩
    · exact .inr (.inl ⟨_, stuck⟩)
    · exact .inr (.inr (.inl none))
    · obtain ⟨before, path, after, rfl, -, problem⟩ := first
      exact .inr (.inr (.inr ⟨_, _, configured, listed, path,
        List.mem_append_right _ List.mem_cons_self, _, problem⟩))

end Disk

namespace Plan

variable {disk : Disk} {args : List String} {i : Invocation} {failure : Failure}
  {text path : String} {count : Nat} (accepted : Request.read args = .run i)
include accepted

theorem make_fail (refused : i.answer disk = .error failure) :
    make disk args = fail failure := by
  rw [make, accepted]
  dsimp only
  rw [refused]

theorem make_print (answered : i.answer disk = .ok (text, count)) (printed : i.output = none) :
    make disk args = print text := by
  rw [make, accepted]
  dsimp only
  rw [answered, printed]

theorem make_save (answered : i.answer disk = .ok (text, count)) (saved : i.output = some path) :
    make disk args = save path text count := by
  rw [make, accepted]
  dsimp only
  rw [answered, saved]

end Plan

open Disk

/-- The command reports the first problem of its configuration, of the file list or of a file, and
neither prints nor writes anything. Where there is no problem it answers with one JSON object: each
path that is found, once and in the order in which it is found first, with the JSON of its tree.
The answer is printed, or else the file that it is written to is all that changes. -/
theorem runCommand_all_or_nothing (wording : String → Category → String) (disk : Disk)
    {args : List String} {i : Invocation} (accepted : Request.read args = .run i) :
    (disk.HasProblem i → ∃ failure, disk.FirstProblem i failure) ∧
    (∀ failure, disk.FirstProblem i failure →
      runCommand wording disk args =
        { status := 1, stdout := "", stderr := failure.report wording, disk := disk }) ∧
    (¬ disk.HasProblem i → ∃ settings paths members, disk.Configured i settings ∧
      disk.listTemplates i.inputs = .ok paths ∧ disk.Members settings paths members ∧
      let text := (Json.object members).pretty ++ "\n"
      (i.output = none →
        runCommand wording disk args =
          { status := 0, stdout := text, stderr := "", disk := disk }) ∧
      ∀ path, i.output = some path → ∀ disk', disk.writeFile path (utf8 text) = .ok disk' →
        disk.WritesOnly disk' path (utf8 text) ∧
        runCommand wording disk args =
          { status := 0, stdout := "", stderr := savedLine path paths.length, disk := disk' }) := by
  refine ⟨hasProblem_iff.1, ?_, ?_⟩
  · intro failure first
    rw [runCommand, Plan.make_fail accepted (answer_error.2 first)]
    rfl
  · intro fine
    cases answered : i.answer disk with
    | error failure => exact absurd (hasProblem_iff.2 ⟨failure, answer_error.1 answered⟩) fine
    | ok answer =>
      obtain ⟨text, count⟩ := answer
      obtain ⟨settings, paths, members, configured, listed, -, all, rfl, rfl⟩ := answer_ok answered
      refine ⟨settings, paths, members, configured, listed, all, ?_, ?_⟩
      · intro printed
        rw [runCommand, Plan.make_print accepted answered printed]
        rfl
      · intro path saved disk' written
        refine ⟨writesOnly_of_writeFile written, ?_⟩
        unfold utf8 at written
        rw [runCommand, Plan.make_save accepted answered saved, Plan.carryOut, written]

/-- Nothing is written when the configuration is empty, a directory may not be listed, or the second
of two files may not be read. The first file alone is printed, or written to a new file. -/
theorem runCommand_all_or_nothing_runs :
    let wording : String → Category → String := fun _ _ =>
      "EOF while parsing a value at line 1 column 0"
    let disk : Disk := {
      top := .directory true
        [("a.hamlet", .file []), ("b.hamlet", .locked), ("c", .directory false [])] }
    runCommand wording disk ["-oout", "--config=a.hamlet", "c"] =
      { status := 1, stdout := "", disk := disk, stderr :=
          "error: invalid config JSON: EOF while parsing a value at line 1 column 0\n" } ∧
    runCommand wording disk ["-oout", "b.hamlet", "c"] =
      { status := 1, stdout := "", disk := disk,
        stderr := "error: Permission denied (os error 13)\n" } ∧
    runCommand wording disk ["-oout", "b.hamlet", "a.hamlet"] =
      { status := 1, stdout := "", disk := disk,
        stderr := "error: cannot read b.hamlet: Permission denied (os error 13)\n" } ∧
    (∃ text, runCommand wording disk ["a.hamlet"] =
      { status := 0, stdout := text, stderr := "", disk := disk }) ∧
    ∃ text disk', disk.WritesOnly disk' "out" (utf8 text) ∧
      runCommand wording disk ["-oout", "a.hamlet"] =
        { status := 0, stdout := "", stderr := "parsed 1 file(s) -> out\n", disk := disk' } := by
  intro wording disk
  have read : ∃ tree, disk.FileTree {} "a.hamlet" tree := by
    have fine : (parseBytes (Settings.withFileName {} "a.hamlet") []).isOk = true := by
      decide +kernel
    cases parsed : parseBytes (Settings.withFileName {} "a.hamlet") [] with
    | ok tree => exact ⟨tree, [], rfl, parsed⟩
    | error refusal =>
      rw [parsed] at fine
      cases fine
  have unnamed (inputs : List String) (output : Option String) :
      disk.Configured { inputs := inputs, output := output } {} :=
    ⟨{}, ⟨by rintro path ⟨⟩, fun _ => rfl⟩, rfl⟩
  have single : disk.listTemplates ["a.hamlet"] = .ok ["a.hamlet"] :=
    congrArg Except.ok (List.mergeSort_singleton _)
  have fine (output : Option String) :
      ¬ disk.HasProblem { inputs := ["a.hamlet"], output := output } := by
    unfold HasProblem
    rw [single]
    rintro (⟨path, failure, ⟨⟩, -⟩ | ⟨fault, ⟨⟩⟩ | ⟨⟨⟩⟩ | ⟨settings, _, configured, ⟨⟩, problem⟩)
    obtain ⟨path, mem, failure, problem⟩ := problem
    obtain rfl := configured.unique (unnamed _ _)
    obtain rfl := List.mem_singleton.1 mem
    obtain ⟨tree, read⟩ := read
    exact read.not_problem problem
  refine ⟨?_, ?_, ?_, ?_, ?_⟩
  · have accepted : Request.read ["-oout", "--config=a.hamlet", "c"] =
        .run { inputs := ["c"], output := some "out", config := some "a.hamlet" } := by decide
    have refused : Settings.read "" = .error .ended := by decide +kernel
    have problem : disk.ConfigProblem "a.hamlet" (.configInvalid "" .ended) :=
      .invalid rfl refused
    exact (runCommand_all_or_nothing wording disk accepted).2.1 _ (.config rfl problem)
  · have accepted : Request.read ["-oout", "b.hamlet", "c"] =
        .run { inputs := ["b.hamlet", "c"], output := some "out" } := by decide
    have stuck : disk.listTemplates ["b.hamlet", "c"] = .error .denied := rfl
    exact (runCommand_all_or_nothing wording disk accepted).2.1 _ (.unlistable (unnamed _ _) stuck)
  · have accepted : Request.read ["-oout", "b.hamlet", "a.hamlet"] =
        .run { inputs := ["b.hamlet", "a.hamlet"], output := some "out" } := by decide
    have order : pathLe "b.hamlet" "a.hamlet" = false := by decide
    have listed : disk.listTemplates ["b.hamlet", "a.hamlet"] = .ok ["a.hamlet", "b.hamlet"] := by
      change Except.ok (["b.hamlet", "a.hamlet"].mergeSort pathLe) = _
      simp [List.mergeSort, order]
    have first : disk.FirstFaulty {} ["a.hamlet", "b.hamlet"] (.unreadable "b.hamlet" .denied) :=
      ⟨["a.hamlet"], "b.hamlet", [], rfl, by simpa using read, .unreadable rfl⟩
    exact (runCommand_all_or_nothing wording disk accepted).2.1 _ (.file (unnamed _ _) listed first)
  · have accepted : Request.read ["a.hamlet"] = .run { inputs := ["a.hamlet"] } := by decide
    obtain ⟨settings, paths, members, -, -, -, printed, -⟩ :=
      (runCommand_all_or_nothing wording disk accepted).2.2 (fine none)
    exact ⟨_, printed rfl⟩
  · have accepted : Request.read ["-oout", "a.hamlet"] =
        .run { inputs := ["a.hamlet"], output := some "out" } := by decide
    obtain ⟨settings, paths, members, -, listed, -, -, saved⟩ :=
      (runCommand_all_or_nothing wording disk accepted).2.2 (fine (some "out"))
    obtain rfl : ["a.hamlet"] = paths := Except.ok.inj (single.symm.trans listed)
    obtain ⟨only, run⟩ := saved "out" rfl _ rfl
    exact ⟨_, _, only, run⟩

end TemplateMarkup
