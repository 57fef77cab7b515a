import Interchange.Cli.Command
import Interchange.Proofs.Engine.Allowance
import Interchange.Proofs.FileSystem

/-!
# What a check of a directory runs

A check lists the host scripts of a directory and evaluates each of them in a new world of its own
(`Cli.check_runs_what_it_lists`). The listing finds its files from the working directory, and an
engine looks for its sources below the root of the configuration and by their plain paths. So what
is evaluated is the script that was listed, unless the root leads elsewhere or the directory lies
two levels up; then it may be another one (`Cli.check_runs_another_script`). What the scripts log
is added to a file that a script could read, so a script by itself comes to the same as after others
only if it does not depend on that (`Cli.SparesLog`).
-/
namespace Interchange

/-- Extensions are led one after the other to languages that a table knows. -/
theorem LanguageTable.exists_foldlM_lead {aliases : List (String × String)} {table : LanguageTable}
    (known : ∀ entry ∈ aliases, ∃ language, table.get entry.2 = .ok language) :
    ∃ after, aliases.foldlM (fun table entry => table.lead entry.1 entry.2) table = .ok after := by
  induction aliases generalizing table with
  | nil => exact ⟨table, rfl⟩
  | cons entry rest ih =>
    obtain ⟨⟨language, found⟩, others⟩ := List.forall_mem_cons.1 known
    let next : LanguageTable :=
      { table with extensions := Fields.put (bareExtension entry.1) entry.2 table.extensions }
    have led : table.lead entry.1 entry.2 = .ok next := by
      rw [lead, found]
      rfl
    have still : ∀ entry ∈ rest, ∃ language, next.get entry.2 = .ok language := others
    obtain ⟨after, all⟩ := ih still
    exact ⟨after, by rw [List.foldlM_cons, led]; exact all⟩

namespace Cli

variable {disk : Disk} {config : Config} {journal : Bool} {world : World} {path : String}

/-- The configuration tells only of languages that are bundled. -/
def NamesBundled (config : Config) : Prop :=
  ∀ language ∈ config.languages,
    language.id = Forms.languageName ∨ language.id = Statements.languageName

/-- A world in which nothing has happened yet, with the engine that a configuration asks for. -/
structure IsFresh (disk : Disk) (config : Config) (world : World) : Prop where
  /-- Sources are files below the root. -/
  loader : world.engine.loader = .files disk config.root
  /-- There is no context but the host. -/
  contexts : world.engine.contexts = .initial
  /-- Evaluations are nested as deep as the configuration says. -/
  limit : world.engine.maxDepth = config.maxDepth.toNat
  /-- The languages are the bundled ones. -/
  languages :
    world.engine.languages.languages = ({} : Builder).bundledLanguages.languages.languages
  /-- No routine can be run. -/
  isSealed : world.Sealed noRoutine

/-- An engine can be built for a configuration that tells only of bundled languages. -/
theorem NamesBundled.exists_freshWorld (bundled : NamesBundled config) (disk : Disk)
    (journal : Bool) : ∃ world, freshWorld disk config journal = .ok world := by
  have known : ∀ entry ∈ (setUp config journal).aliases,
      ∃ language, (setUp config journal).languages.get entry.2 = .ok language := by
    intro entry mem
    obtain ⟨language, told, given⟩ := List.mem_flatMap.1 mem
    obtain ⟨extension, _, rfl⟩ := List.mem_map.1 given
    rcases bundled language told with same | same
    · exact ⟨.forms, by rw [same]; rfl⟩
    · exact ⟨.statements, by rw [same]; rfl⟩
  obtain ⟨languages, led⟩ := LanguageTable.exists_foldlM_lead known
  exact ⟨_, Outcome.bind_ok_iff.2 ⟨_, Builder.build_ok_iff.2 ⟨languages, led, rfl⟩, rfl⟩⟩

/-- In the world of a new engine nothing has happened yet. -/
theorem isFresh_of_freshWorld (made : freshWorld disk config journal = .ok world) :
    IsFresh disk config world := by
  obtain ⟨engine, built, same⟩ := Outcome.bind_ok_iff.1 made
  obtain rfl := Outcome.pure_ok_iff.1 same
  have languages := Builder.languages_build built
  obtain ⟨table, led, rfl⟩ := Builder.build_ok_iff.1 built
  have root : (setUp config journal).root = config.root := by
    rw [setUp, Builder.config]
    cases config.root <;> rfl
  refine ⟨congrArg (Loader.files disk) root, rfl, rfl, languages, ?_, ?_, ?_⟩
  · intro name binding impossible
    simp [Builder.registry, Registry.start, Registry.find?, Fields.find?] at impossible
  · exact fun _ _ impossible => by cases impossible
  · exact fun _ _ impossible => by simp at impossible

namespace IsFresh

/-- A fresh world knows no languages but the bundled ones. -/
theorem isBundled (fresh : IsFresh disk config world) : world.engine.languages.IsBundled :=
  Builder.bundledLanguages_isBundled.of_languages_eq fresh.languages

/-- Every file that is evaluated in a fresh world is evaluated to an end. -/
theorem exists_evalFile (fresh : IsFresh disk config world) (path : String) :
    ∃ ended after, Engine.evalFile (runner config) path world = some (ended, after) := by
  have host : world.engine.contexts.Descends .host 0 world.engine.contexts.count [] := by
    rw [fresh.contexts]
    exact @ContextTree.Descends.start .initial .host _ rfl
  have serves : world.engine.Serves .host 0 config.maxDepth.toNat _ [] :=
    ⟨host, fun some => absurd rfl some, fresh.isBundled, fresh.limit⟩
  obtain ⟨⟨ended, after⟩, ran⟩ := Call.exists_carryOut (.file path) noRoutines fresh.isSealed serves
    (Nat.le_add_left _ _)
  exact ⟨ended, after, ran⟩

/-- A file is evaluated as what its loader has at its plain path. -/
theorem evalFile_of_load (fresh : IsFresh disk config world) {language : Language} {text : String}
    (known : world.engine.languages.forPath path = .ok language)
    (loaded : world.engine.loader.load (SourcePath.normalize path) = .ok text) (run : Runner) :
    Engine.evalFile run path world =
      Engine.evalUnit run ⟨language.id, SourcePath.normalize path, text⟩ world := by
  have there : ∃ other, world.engine.languages.get language.id = .ok other := by
    obtain ⟨id, _, found⟩ := Outcome.bind_ok_iff.1 known
    rw [LanguageTable.get, fresh.languages]
    rcases fresh.isBundled id language found with rfl | rfl
    · exact ⟨.forms, rfl⟩
    · exact ⟨.statements, rfl⟩
  obtain ⟨other, found⟩ := there
  have outside : world.engine.contexts.sourceOf .host = none := by
    rw [fresh.contexts]
    rfl
  simp only [Engine.evalFile, known, Engine.evalAt, outside, SourcePath.resolve, found, loaded]
  rfl

/-- A source is the text of the file of its path if the root keeps the path. -/
theorem load_eq {system : FileSystem} (fresh : IsFresh system.disk config world) {path : String}
    (keeps : ∀ root ∈ config.root, system.Keeps root path) {text : String}
    (held : system.read path = .ok text) : world.engine.loader.load path = .ok text := by
  have read : world.engine.loader.load path =
      (system.read (world.engine.loader.fullPath path)).mapError fun cause =>
        .sourceNotFound (world.engine.loader.fullPath path) (some cause) := by
    rw [fresh.loader]
    rfl
  have found : system.read (world.engine.loader.fullPath path) = .ok text := by
    rw [fresh.loader]
    cases given : config.root with
    | none => exact held
    | some root =>
      rw [Loader.fullPath]
      split
      · exact held
      · rename_i relative
        exact (keeps root given).read_join relative held
  rw [read, found]
  rfl

end IsFresh

/-- An action in a world leads to what it has led to when it ends. -/
def LeadsTo (action : Action (Except Fault ContextId)) (world : World) (result : Evaluated) :
    Prop :=
  ∃ ended after, action world = some (ended, after) ∧ result = .ofEnd ended after

/-- Evaluating a script is evaluating its file in a fresh world. -/
theorem evaluate_of_leadsTo (made : freshWorld disk config journal = .ok world)
    {result : Evaluated} (leads : LeadsTo (Engine.evalFile (runner config) path) world result) :
    evaluate disk config journal path = .ok result := by
  obtain ⟨ended, after, ran, rfl⟩ := leads
  refine Outcome.bind_ok_iff.2 ⟨world, made, ?_⟩
  rw [ran]
  rfl

/-- What is printed for a host script: a heading, what the script prints, and the report on it. -/
def passage (host : String) (result : Evaluated) : String :=
  "== " ++ host ++ "\n" ++ result.printed ++
    (if result.report.isEmpty then "no findings\n" else result.report.written)

/-- A script passes that ends without a fault and has no errors in its report. -/
def Evaluated.Passes (result : Evaluated) : Prop :=
  result.fault = none ∧ result.report.hasErrors = false

/-- Scripts are checked one after the other: each has its passage, and all have to pass, if each
comes to the same whatever the earlier ones have done to the files. -/
theorem checkAll_of_evaluated {Files : Type} (see : Files → Disk) (leave : String → Files → Files)
    {Reached : Files → Prop} (stays : ∀ host files, Reached files → Reached (leave host files))
    {hosts : List String} {result : String → Evaluated}
    (evaluated : ∀ host ∈ hosts, ∀ files, Reached files →
      evaluate (see files) config true host = .ok (result host))
    {files : Files} (reached : Reached files) :
    (checkAll see leave config files hosts).1.stdout =
        String.join (hosts.map fun host => passage host (result host)) ∧
      ((checkAll see leave config files hosts).1.exit = 0 ↔
        ∀ host ∈ hosts, (result host).Passes) := by
  induction hosts generalizing files with
  | nil => exact ⟨rfl, by simp [checkAll]⟩
  | cons host hosts ih =>
    obtain ⟨first, rest⟩ := List.forall_mem_cons.1 evaluated
    obtain ⟨printed, passed⟩ := ih rest (stays host files reached)
    rw [checkAll, first files reached]
    constructor
    · rw [List.map_cons, String.join_cons, ← printed]
      rfl
    · rw [List.forall_mem_cons, ← passed, Evaluated.Passes]
      simp only [Outcome.andThen]
      cases (result host).fault <;> cases (result host).report.hasErrors <;> simp

/-- A system as it may have become by what was added to the log of a configuration. -/
inductive IsLogged (config : Config) (system : FileSystem) : FileSystem → Prop where
  /-- Nothing was added. -/
  | start : IsLogged config system system
  /-- Some lines were added. -/
  | more {between : FileSystem} (lines : String) (logged : IsLogged config system between) :
      IsLogged config system (writeLog config lines between)

/-- A script does not depend on what was added to the log: it comes to the same with any of it. That
is so of every script if there is no log file, and of every script that does not read it. -/
def SparesLog (config : Config) (system : FileSystem) (path : String) : Prop :=
  ∀ later, IsLogged config system later →
    evaluate later.disk config true path = evaluate system.disk config true path

/-- Where there is no log file, nothing is added to it. -/
theorem eq_of_isLogged {system later : FileSystem} (none : config.log.file = none)
    (logged : IsLogged config system later) : later = system := by
  induction logged with
  | start => rfl
  | more lines _ ih => rw [writeLog, none, ih]

/-- Checking scripts does nothing to the files but to add to the log. -/
theorem isLogged_checkAll (logged : String → String) {system later : FileSystem}
    (reached : IsLogged config system later) {hosts : List String} :
    IsLogged config system (checkAll FileSystem.disk
      (fun script => writeLog config (logged script)) config later hosts).2 := by
  induction hosts generalizing later with
  | nil => exact reached
  | cons host hosts ih =>
    rw [checkAll]
    dsimp only
    split
    · exact reached
    · exact ih (.more _ reached)

/-- Without a log file no script depends on one. -/
theorem sparesLog_of_none {system : FileSystem} (none : config.log.file = none) (path : String) :
    SparesLog config system path := fun later logged => by rw [eq_of_isLogged none logged]

/-- A file in a directory that is listed as a host script: its name is that of one, and its path is
not too long. -/
structure IsListed (directory : String) (entries : List (String × FileTree)) (name : String) :
    Prop where
  /-- It is a file. -/
  file : ∃ content, (name, .file content) ∈ entries
  /-- Its name is that of a host script. -/
  host : SourcePath.isHost name = true
  /-- Its path can be looked up. -/
  short : (SourcePath.join directory name).utf8ByteSize < FileSystem.pathLimit

/-- The names of the host scripts of a directory. -/
def hostNames (system : FileSystem) (directory : String) (entries : List (String × FileTree)) :
    List String :=
  (Fields.names (Fields.sorted entries)).filter fun name =>
    system.isFile (SourcePath.join directory name) &&
      SourcePath.isHost (SourcePath.join directory name)

section Listing

variable {system : FileSystem} {directory : String} {entries : List (String × FileTree)}
  {above : List FileTree}

/-- The host scripts are those of the names. -/
theorem hosts_eq_map (system : FileSystem) (directory : String)
    (entries : List (String × FileTree)) :
    hosts system.isFile directory (Fields.names (Fields.sorted entries)) =
      (hostNames system directory entries).map (SourcePath.join directory) := by
  rw [hosts, List.filter_map]
  rfl

/-- The names of the host scripts are in order, each once. -/
theorem hostNames_sorted (system : FileSystem) (directory : String)
    (entries : List (String × FileTree)) :
    (hostNames system directory entries).Pairwise (· < ·) :=
  (Fields.sorted_isSorted entries).filter _

/-- The host scripts of a directory are the files in it that have the name of one. -/
theorem mem_hostNames_iff (walked : system.walk directory = .ok ⟨.directory entries, above⟩)
    (tidy : FileSystem.IsTidy entries)
    (name : String) :
    name ∈ hostNames system directory entries ↔ IsListed directory entries name := by
  have filled := FileSystem.ne_empty_of_walk walked
  have moved : (Fields.names (Fields.sorted entries)).Perm (Fields.names entries) :=
    (Fields.sorted_perm tidy.distinct).map Prod.fst
  rw [hostNames, List.mem_filter, moved.mem_iff, Bool.and_eq_true]
  constructor
  · rintro ⟨there, file, host⟩
    obtain ⟨⟨_, tree⟩, mem, rfl⟩ := List.mem_map.1 there
    obtain ⟨⟨content, rfl⟩, short⟩ :=
      (FileSystem.isFile_entry_iff walked tidy mem).1 file
    rw [SourcePath.isHost_join filled (tidy.named _ there).proper] at host
    exact ⟨⟨content, mem⟩, host, short⟩
  · rintro ⟨⟨content, mem⟩, host, short⟩
    have there : name ∈ Fields.names entries := List.mem_map.2 ⟨_, mem, rfl⟩
    refine ⟨there, (FileSystem.isFile_entry_iff walked tidy mem).2 ⟨⟨content, rfl⟩, short⟩, ?_⟩
    rw [SourcePath.isHost_join filled (tidy.named name there).proper]
    exact host

/-- The plain path of a file in a directory leads to the file, if the directory does not lie two
levels up. -/
theorem read_normalize_join (walked : system.walk directory = .ok ⟨.directory entries, above⟩)
    (tidy : FileSystem.IsTidy entries)
    (few : (SourcePath.locate directory).climbs < 2) {name text : String}
    (mem : (name, .file (some text)) ∈ entries)
    (short : (SourcePath.join directory name).utf8ByteSize < FileSystem.pathLimit) :
    system.read (SourcePath.normalize (SourcePath.join directory name)) = .ok text := by
  have filled := FileSystem.ne_empty_of_walk walked
  have named := tidy.named name (List.mem_map.2 ⟨_, mem, rfl⟩)
  have below : (SourcePath.locate (SourcePath.join directory name)).climbs < 2 := by
    rw [SourcePath.locate_join filled named.proper, Location.go, if_neg named.proper.meaningful,
      if_neg named.down]
    exact few
  have kept : SourcePath.reduce (SourcePath.names (SourcePath.join directory name)) ≠ [] := by
    rw [SourcePath.names_join filled, SourcePath.names_of_isName named.proper]
    exact SourcePath.reduce_concat_ne_nil _ named.down
  have found := FileSystem.walk_normalize
    (FileSystem.walk_entry walked tidy mem short) below kept
  rw [FileSystem.read, found]
  rfl

end Listing

/-- What a check of a directory shows: the names of the host scripts in it, and the result of each
of them alone. -/
structure Checks (world : World) (config : Config) (directory : String)
    (entries : List (String × FileTree)) (names : List String) (result : String → Evaluated)
    (outcome : Outcome) : Prop where
  /-- The names are in order, each once. -/
  ordered : names.Pairwise (· < ·)
  /-- They are those of all host scripts in the directory, and of nothing else. -/
  listed : ∀ name, name ∈ names ↔ IsListed directory entries name
  /-- Each script is evaluated in the same world, whatever scripts were evaluated before it. -/
  evaluated : ∀ name ∈ names,
    LeadsTo (Engine.evalFile (runner config) (SourcePath.join directory name)) world (result name)
  /-- There is a passage for each script, and nothing else is printed. -/
  printed : outcome.stdout = String.join
    (names.map fun name => passage (SourcePath.join directory name) (result name))
  /-- The check succeeds if and only if all scripts pass. -/
  passed : outcome.exit = 0 ↔ ∀ name ∈ names, (result name).Passes

/-- A check of a directory, be its path absolute or not, prints one passage for each host script in
it, in the order of their names. Each is evaluated to an end in a new world, and the check succeeds
if and only if all of them pass. Unless the directory lies two levels up or the root leads
elsewhere, what is evaluated is the text of the file that was listed. The configuration may name a
log file, and whatever is logged while a script is evaluated is added to it; only the scripts of the
directory must not depend on that (`SparesLog`), as one would that reads the log. -/
theorem check_runs_what_it_lists (logged : String → String) {before system : FileSystem}
    {invocation : Invocation} {config : Config} {directory : String}
    {entries : List (String × FileTree)} {above : List FileTree}
    (asked : invocation.command = .check directory)
    (configured : configure invocation.options
      (before.read (invocation.options.config.getD "")) = .ok config)
    (bundled : NamesBundled config) (opened : openLog before config = .ok system)
    (walked : system.walk directory = .ok ⟨.directory entries, above⟩)
    (tidy : FileSystem.IsTidy entries)
    (spares : ∀ name, IsListed directory entries name →
      SparesLog config system (SourcePath.join directory name)) :
    ∃ world outcome after names result,
      freshWorld system.disk config true = .ok world ∧
      perform logged before invocation = (outcome, after) ∧ IsLogged config system after ∧
      Checks world config directory entries names result outcome ∧
      ((SourcePath.locate directory).climbs < 2 → ∀ name ∈ names,
        (∀ root ∈ config.root,
          system.Keeps root (SourcePath.normalize (SourcePath.join directory name))) →
        ∀ text language, (name, .file (some text)) ∈ entries →
          world.engine.languages.forPath (SourcePath.join directory name) = .ok language →
          Engine.evalFile (runner config) (SourcePath.join directory name) world =
            Engine.evalUnit (runner config)
              ⟨language.id, SourcePath.normalize (SourcePath.join directory name), text⟩
              world) := by
  obtain ⟨world, made⟩ := bundled.exists_freshWorld system.disk true
  have fresh := isFresh_of_freshWorld made
  have each : ∀ path, ∃ result, LeadsTo (Engine.evalFile (runner config) path) world result := by
    intro path
    obtain ⟨ended, after, ran⟩ := fresh.exists_evalFile path
    exact ⟨_, ended, after, ran, rfl⟩
  choose result leads using each
  have listed := mem_hostNames_iff walked tidy
  have performed : perform logged before invocation = checkAll FileSystem.disk
      (fun script => writeLog config (logged script)) config system
      ((hostNames system directory entries).map (SourcePath.join directory)) := by
    simp only [perform, configured, opened, asked, FileSystem.list_of_walk walked, hosts_eq_map]
  -- Each script comes to what it comes to alone, whatever those before it have logged.
  have alone : ∀ path ∈ (hostNames system directory entries).map (SourcePath.join directory),
      ∀ later, IsLogged config system later →
        evaluate later.disk config true path = .ok (result path) := by
    intro path mem later logged
    obtain ⟨name, there, rfl⟩ := List.mem_map.1 mem
    rw [spares name ((listed name).1 there) later logged]
    exact evaluate_of_leadsTo made (leads _)
  obtain ⟨printed, passed⟩ := checkAll_of_evaluated FileSystem.disk
    (fun script => writeLog config (logged script)) (fun _ _ reached => .more _ reached) alone
    .start
  rw [List.map_map] at printed
  rw [List.forall_mem_map] at passed
  have checks : Checks world config directory entries (hostNames system directory entries)
      (fun name => result (SourcePath.join directory name))
      (perform logged before invocation).1 := by
    rw [performed]
    exact ⟨hostNames_sorted system directory entries, listed, fun name _ => leads _, printed,
      passed⟩
  refine ⟨world, (perform logged before invocation).1, (perform logged before invocation).2, _, _,
    made, rfl, ?_, checks, ?_⟩
  · rw [performed]
    exact isLogged_checkAll logged .start
  · intro few name mentioned keeps text language mem known
    have read := read_normalize_join walked tidy few mem ((listed name).1 mentioned).short
    exact fresh.evalFile_of_load known (fresh.load_eq keeps read) _

/-- The entries of a directory with two host scripts and another one. -/
def sampleEntries : List (String × FileTree) :=
  [("host.lisp", .file (some "(print 1)")), ("b-host.jss", .file (some "print import n")),
    ("other.lisp", .file (some "(print 2)"))]

/-- A working directory with this directory. -/
def sampleSystem : FileSystem where
  working := ["home"]
  entries := [("home", .directory [("x", .directory []), ("d", .directory sampleEntries)])]

/-- The names of the sample can be names of files. -/
theorem sampleEntries_isTidy : FileSystem.IsTidy sampleEntries where
  distinct := by decide
  named := by
    have proper (name : String) (good : name ∈ Fields.names sampleEntries) :
        name.toList ≠ [] ∧ name.toList ≠ ['.'] ∧ '/' ∉ name.toList ∧ name.toList ≠ ['.', '.'] ∧
          '\x00' ∉ name.toList ∧ name.utf8ByteSize ≤ 255 := by
      revert name
      decide
    intro name mem
    obtain ⟨nonempty, other, whole, down, clean, short⟩ := proper name mem
    exact ⟨⟨nonempty, other, whole⟩, down, clean, short⟩

/-- A check of the directory of the sample, named in some way, fails and evaluates its first host
script as the file that was listed. -/
def ChecksSample (directory path : String) : Prop :=
  ∃ world outcome after names result,
    perform (fun _ => "") sampleSystem ⟨{}, .check directory⟩ = (outcome, after) ∧
    Checks world {} directory sampleEntries names result outcome ∧
    outcome.exit = 1 ∧ "host.lisp" ∈ names ∧
    Engine.evalFile (runner {}) (SourcePath.join directory "host.lisp") world =
      Engine.evalUnit (runner {}) ⟨"lisp", path, "(print 1)"⟩ world

/-- A check of the sample evaluates both host scripts, each as the file that was listed, and fails
for the one that looks up an unbound name. It does so too if the directory is named from the
root. -/
theorem sample_check_runs_listed :
    ChecksSample "x/../d" "d/host.lisp" ∧ ChecksSample "/home/d" "/home/d/host.lisp" := by
  let above : List FileTree :=
    [.directory [("x", .directory []), ("d", .directory sampleEntries)],
      .directory sampleSystem.entries]
  have configured : configure {} (sampleSystem.read "") = .ok {} := rfl
  have bundled : NamesBundled {} := fun _ none => by cases none
  have opened : openLog sampleSystem {} = .ok sampleSystem := rfl
  have runs {directory : String}
      (walked : sampleSystem.walk directory = .ok ⟨.directory sampleEntries, above⟩)
      (few : (SourcePath.locate directory).climbs < 2)
      (short : (SourcePath.join directory "host.lisp").utf8ByteSize < FileSystem.pathLimit)
      (failed : (perform (fun _ => "") sampleSystem ⟨{}, .check directory⟩).1.exit = 1)
      (extension : SourcePath.fileExtension (SourcePath.join directory "host.lisp") = "lisp") :
      ChecksSample directory (SourcePath.normalize (SourcePath.join directory "host.lisp")) := by
    have asked : (⟨{}, .check directory⟩ : Invocation).command = .check directory := rfl
    obtain ⟨world, outcome, after, names, result, made, performed, -, checks, own⟩ :=
      check_runs_what_it_lists (fun _ => "") asked configured bundled opened walked
        sampleEntries_isTidy fun _ _ => sparesLog_of_none rfl _
    have listed : "host.lisp" ∈ names :=
      (checks.listed "host.lisp").2 ⟨⟨_, List.mem_cons_self⟩, by decide, short⟩
    have known : world.engine.languages.forPath (SourcePath.join directory "host.lisp") =
        .ok .forms := by
      obtain rfl := Except.ok.inj made
      rw [LanguageTable.forPath, extension]
      rfl
    rw [performed] at failed
    exact ⟨world, outcome, after, names, result, performed, checks, failed, listed,
      own few "host.lisp" listed (fun _ none => by cases none) "(print 1)" .forms
        List.mem_cons_self known⟩
  exact ⟨runs rfl (by decide) (by decide) (by decide +kernel) (by decide),
    runs rfl (by decide) (by decide) (by decide +kernel) (by decide)⟩

/-- A working directory with two scripts of one name, one of them below a root. -/
def rootedSystem : FileSystem where
  working := ["home"]
  entries := [("home", .directory [("c.json", .file (some "\x7b\"root\": \"r\"\x7d")),
    ("d", .directory [("host.lisp", .file (some "(print 1)"))]),
    ("r", .directory [("d", .directory [("host.lisp", .file (some "(print 2)"))])])])]

/-- With a root, the script that is evaluated is not the one that was listed, which would print
something else. -/
theorem check_runs_another_script :
    rootedSystem.list "d" = .ok ["host.lisp"] ∧
    rootedSystem.read "d/host.lisp" = .ok "(print 1)" ∧
    (perform (fun _ => "") rootedSystem ⟨{ config := some "c.json" }, .check "d"⟩).1.stdout =
      "== d/host.lisp\n2\nno findings\n" ∧
    ((freshWorld rootedSystem.disk { root := some "r" } true).toOption.bind fun world =>
      (Engine.evalUnit (runner { root := some "r" }) ⟨"lisp", "d/host.lisp", "(print 1)"⟩ world).map
        fun ended => passage "d/host.lisp" (.ofEnd ended.1 ended.2)) =
      some "== d/host.lisp\n1\nno findings\n" :=
  ⟨rfl, rfl, by decide +kernel, by decide +kernel⟩

end Cli

end Interchange
