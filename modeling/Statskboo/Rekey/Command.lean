import Mathlib.Logic.Function.Basic
import Statskboo.Rekey.DryRun
import Statskboo.Rekey.Mapping

/-!
# The command line of the re-key

The words of the command line are read from left to right: an option may take the word after it,
the last value of an option counts, and help or a word that is not understood ends the reading.
The directory may come from the environment.  Only then the mapping is loaded, and only with a
mapping the cache directory is touched.

Main results:

- Theorem {lit}`parseArgs_iff`: which command lines run, which ask for help, and what is wrong
  with the others.
- Theorem {lit}`runCli_keeps`: no content is lost, and what has to be given for a directory to
  change.
-/

namespace Statskboo
namespace Rekey

open DataCache KeyedTable

/-! ## The words -/

/-- Where the mapping comes from. -/
inductive RekeySource where
  | db (url : String)
  | csv (path : String)
deriving DecidableEq, Repr

/-- What a run is about. -/
structure RekeyArgs where
  cacheDir : String
  source : RekeySource
  copy : Bool
  dryRun : Bool
deriving DecidableEq, Repr

/-- What the command line asks for. -/
inductive RekeyCommand where
  | run (args : RekeyArgs)
  | help
deriving DecidableEq, Repr

/-- The text of the help. -/
def usage : String :=
  "usage: statskboo rekey-cache --cache-dir <dir> (--source-db-url <url> | --mapping-csv <path>)" ++
    " [--copy] [--dry-run]\n\n" ++
    "Re-key the legacy statsbook cache (\x7bcanonical_id\x7d.xlsx) to the drive_file_id\n" ++
    "naming (\x7bdrive_file_id\x7d.xlsx). The default is to rename; --copy keeps the\n" ++
    "legacy files. --dry-run reports what would happen without touching any file.\n" ++
    "--cache-dir may be omitted when GAME_DATA_DIR is set."

/-- What is wrong with a command line. -/
inductive ArgsError where
  | unknown (word : String)
  | requiresValue (flag : String)
  | noCacheDir
  | bothSources
  | noSource
deriving DecidableEq, Repr

/-- The text of an error; {lit}`debug` is the {lit}`Debug` text of a word. -/
def ArgsError.message (debug : String → String) : ArgsError → String
  | unknown word => "unknown argument " ++ debug word ++ "\n\n" ++ usage
  | requiresValue flag => flag ++ " requires a value"
  | noCacheDir => "--cache-dir is required (or set GAME_DATA_DIR)\n\n" ++ usage
  | bothSources => "--source-db-url and --mapping-csv are mutually exclusive\n\n" ++ usage
  | noSource => "one of --source-db-url or --mapping-csv is required\n\n" ++ usage

/-- The options with a value. -/
inductive Flag where
  | cacheDir
  | sourceDbUrl
  | mappingCsv
deriving DecidableEq, Repr

/-- The word for an option. -/
def Flag.name : Flag → String
  | cacheDir => "--cache-dir"
  | sourceDbUrl => "--source-db-url"
  | mappingCsv => "--mapping-csv"

/-- The option for a word. -/
def Flag.ofName (word : String) : Option Flag :=
  [cacheDir, sourceDbUrl, mappingCsv].find? fun flag => decide (flag.name = word)

/-- What has been given so far. -/
structure Given where
  cacheDir : Option String
  dbUrl : Option String
  csv : Option String
  copy : Bool
  dryRun : Bool
deriving DecidableEq, Repr

/-- Nothing is given. -/
def Given.nothing : Given where
  cacheDir := none
  dbUrl := none
  csv := none
  copy := false
  dryRun := false

/-- Take the value of an option. -/
def Given.setValue (given : Given) (value : String) : Flag → Given
  | .cacheDir => { given with cacheDir := some value }
  | .sourceDbUrl => { given with dbUrl := some value }
  | .mappingCsv => { given with csv := some value }

/-- The loop over the words; there is nothing given when help is asked for. -/
def argsLoop (given : Given) : List String → Except ArgsError (Option Given)
  | [] => .ok (some given)
  | word :: rest =>
      if word = "-h" ∨ word = "--help" then .ok none
      else if word = "--copy" then argsLoop { given with copy := true } rest
      else if word = "--dry-run" then argsLoop { given with dryRun := true } rest
      else
        match Flag.ofName word, rest with
        | none, _ => .error (.unknown word)
        | some flag, [] => .error (.requiresValue flag.name)
        | some flag, value :: rest =>
            if value = "" then .error (.requiresValue flag.name)
            else argsLoop (given.setValue value flag) rest

/-- The arguments from what is given; {lit}`gameDataDir` is the variable of the environment. -/
def Given.toArgs (gameDataDir : Option String) (given : Given) : Except ArgsError RekeyArgs :=
  match given.cacheDir.or (gameDataDir.filter fun path => path != "") with
  | none => .error .noCacheDir
  | some cacheDir =>
      match given.dbUrl, given.csv with
      | some _, some _ => .error .bothSources
      | some url, none => .ok ⟨cacheDir, .db url, given.copy, given.dryRun⟩
      | none, some path => .ok ⟨cacheDir, .csv path, given.copy, given.dryRun⟩
      | none, none => .error .noSource

/-- The command of a command line. -/
def parseArgs (gameDataDir : Option String) (words : List String) :
    Except ArgsError RekeyCommand :=
  match argsLoop Given.nothing words with
  | .error e => .error e
  | .ok none => .ok .help
  | .ok (some given) => (given.toArgs gameDataDir).map .run

/-! ## The run -/

/-- What there is around a run: the cache directories and the text files under their paths, and
the rows of the legacy databases. -/
structure World where
  dirs : String → Dir
  text : String → Option (List Char)
  legacy : String → Option (List MappingRow)

/-- What stops the command. -/
inductive CommandError where
  | args (e : ArgsError)
  | csv (path : String) (e : CsvError)
  | legacy (url : String)
  | rekey (e : RekeyError)
deriving DecidableEq, Repr

/-- The rows of the mapping. -/
def loadRows (world : World) : RekeySource → Except CommandError (List MappingRow)
  | .db url =>
      match world.legacy url with
      | none => .error (.legacy url)
      | some rows => .ok rows
  | .csv path => (loadCsv (world.text path)).mapError (.csv path)

/-- Load the mapping and perform the re-key. -/
def run (faults : Faults) (world : World) (args : RekeyArgs) :
    (String → Dir) × Except CommandError RekeyReport :=
  match loadRows world args.source with
  | .error e => (world.dirs, .error e)
  | .ok rows =>
      match rekey faults args.copy args.dryRun (world.dirs args.cacheDir) rows with
      | (dir, result) => (Function.update world.dirs args.cacheDir dir, result.mapError .rekey)

/-- An option, perhaps with its value. -/
inductive Opt where
  | valued (flag : Flag) (value : String)
  | copy
  | dryRun
deriving DecidableEq, Repr

/-- The words of an option. -/
def Opt.words : Opt → List String
  | valued flag value => [flag.name, value]
  | copy => ["--copy"]
  | dryRun => ["--dry-run"]

/-- Where a value is expected, there is one. -/
def Opt.HasValue : Opt → Prop
  | valued _ value => value ≠ ""
  | _ => True

/-- Take an option. -/
def Given.set (given : Given) : Opt → Given
  | .valued flag value => given.setValue value flag
  | .copy => { given with copy := true }
  | .dryRun => { given with dryRun := true }

/-- These options come first on a command line, and these words after them. -/
def Starts (opts : List Opt) (rest words : List String) : Prop :=
  (∀ opt ∈ opts, opt.HasValue) ∧ words = opts.flatMap Opt.words ++ rest

/-- The reading ends early at these words: help is asked for, or something is wrong. -/
inductive Ends : List String → Option ArgsError → Prop
  | help {word : String} {rest : List String} :
      word = "-h" ∨ word = "--help" → Ends (word :: rest) none
  | unknown {word : String} {rest : List String} :
      ¬ (word = "-h" ∨ word = "--help") → word ≠ "--copy" → word ≠ "--dry-run" →
        (∀ flag : Flag, flag.name ≠ word) → Ends (word :: rest) (some (.unknown word))
  | last (flag : Flag) : Ends [flag.name] (some (.requiresValue flag.name))
  | empty (flag : Flag) (rest : List String) :
      Ends (flag.name :: "" :: rest) (some (.requiresValue flag.name))

/-- The value that an option gives for a flag. -/
def Opt.valueOf (flag : Flag) : Opt → Option String
  | valued flag' value => if flag' = flag then some value else none
  | _ => none

/-- The value of an option that counts: the last one. -/
def lastValue (flag : Flag) (opts : List Opt) : Option String :=
  (opts.filterMap (Opt.valueOf flag)).getLast?

/-- The directory for some options: the last one given, or that of the environment. -/
def dirOf (gameDataDir : Option String) (opts : List Opt) : Option String :=
  (lastValue .cacheDir opts).or (gameDataDir.filter fun path => path != "")

/-- The options ask for this run. -/
structure AsksFor (gameDataDir : Option String) (opts : List Opt) (args : RekeyArgs) : Prop where
  cacheDir : dirOf gameDataDir opts = some args.cacheDir
  source : match args.source with
    | .db url => lastValue .sourceDbUrl opts = some url ∧ lastValue .mappingCsv opts = none
    | .csv path => lastValue .mappingCsv opts = some path ∧ lastValue .sourceDbUrl opts = none
  copy : args.copy = true ↔ Opt.copy ∈ opts
  dryRun : args.dryRun = true ↔ Opt.dryRun ∈ opts

/-- What is wrong with some options as a whole. -/
inductive Incomplete (gameDataDir : Option String) (opts : List Opt) : ArgsError → Prop
  | noCacheDir : dirOf gameDataDir opts = none → Incomplete gameDataDir opts .noCacheDir
  | bothSources {dir url path : String} :
      dirOf gameDataDir opts = some dir → lastValue .sourceDbUrl opts = some url →
        lastValue .mappingCsv opts = some path → Incomplete gameDataDir opts .bothSources
  | noSource {dir : String} :
      dirOf gameDataDir opts = some dir → lastValue .sourceDbUrl opts = none →
        lastValue .mappingCsv opts = none → Incomplete gameDataDir opts .noSource

section Words

variable {given : Given} {opt : Opt} {opts : List Opt} {word : String} {words rest : List String}

theorem Flag.ofName_name (flag : Flag) : Flag.ofName flag.name = some flag := by
  cases flag <;> decide

theorem Flag.name_of_ofName {flag : Flag} (h : Flag.ofName word = some flag) :
    flag.name = word := by
  simpa using List.find?_some h

theorem Flag.ofName_eq_none_iff : Flag.ofName word = none ↔ ∀ flag : Flag, flag.name ≠ word := by
  constructor
  · rintro h flag rfl
    rw [flag.ofName_name] at h
    cases h
  · intro h
    refine Option.eq_none_iff_forall_ne_some.mpr fun flag hflag => ?_
    exact h flag (Flag.name_of_ofName hflag)

/-- A word for an option with a value is none of the others. -/
theorem Flag.name_ne (flag : Flag) :
    ¬ (flag.name = "-h" ∨ flag.name = "--help") ∧ flag.name ≠ "--copy" ∧
      flag.name ≠ "--dry-run" := by
  cases flag <;> decide

theorem argsLoop_help (hword : word = "-h" ∨ word = "--help") :
    argsLoop given (word :: rest) = .ok none := by
  rw [argsLoop.eq_def]
  exact if_pos hword

theorem argsLoop_unknown (hhelp : ¬ (word = "-h" ∨ word = "--help")) (hcopy : word ≠ "--copy")
    (hdry : word ≠ "--dry-run") (hname : Flag.ofName word = none) :
    argsLoop given (word :: rest) = .error (.unknown word) := by
  rw [argsLoop.eq_def]
  simp only [if_neg hhelp, if_neg hcopy, if_neg hdry, hname]

theorem argsLoop_name (flag : Flag) :
    argsLoop given (flag.name :: rest) =
      match rest with
      | [] => .error (.requiresValue flag.name)
      | value :: rest =>
          if value = "" then .error (.requiresValue flag.name)
          else argsLoop (given.setValue value flag) rest := by
  obtain ⟨hhelp, hcopy, hdry⟩ := flag.name_ne
  rw [argsLoop.eq_def]
  simp only [if_neg hhelp, if_neg hcopy, if_neg hdry, flag.ofName_name]
  cases rest <;> rfl

/-- The loop takes an option. -/
theorem argsLoop_words (h : opt.HasValue) :
    argsLoop given (opt.words ++ rest) = argsLoop (given.set opt) rest := by
  cases opt with
  | valued flag value =>
      have hvalue : value ≠ "" := h
      exact (argsLoop_name flag).trans (if_neg hvalue)
  | copy =>
      rw [argsLoop.eq_def]
      rfl
  | dryRun =>
      rw [argsLoop.eq_def]
      rfl

/-- The loop takes the options in turn. -/
theorem argsLoop_of_starts (h : Starts opts rest words) :
    argsLoop given words = argsLoop (opts.foldl Given.set given) rest := by
  obtain ⟨hopts, rfl⟩ := h
  induction opts generalizing given with
  | nil => rfl
  | cons opt opts ih =>
      rw [List.flatMap_cons, List.append_assoc, argsLoop_words (hopts opt List.mem_cons_self),
        ih fun opt' hopt' => hopts opt' (List.mem_cons_of_mem opt hopt')]
      rfl

/-- Where the reading ends early, the loop says why. -/
theorem argsLoop_of_ends {e : Option ArgsError} (h : Ends rest e) :
    argsLoop given rest = match e with
      | none => .ok none
      | some e => .error e := by
  cases h with
  | help hword => exact argsLoop_help hword
  | unknown hhelp hcopy hdry hname =>
      exact argsLoop_unknown hhelp hcopy hdry (Flag.ofName_eq_none_iff.mpr hname)
  | last flag => exact argsLoop_name flag
  | empty flag rest => exact argsLoop_name flag

theorem Starts.cons (hopt : opt.HasValue) (h : Starts opts rest words) :
    Starts (opt :: opts) rest (opt.words ++ words) := by
  obtain ⟨hopts, rfl⟩ := h
  exact ⟨List.forall_mem_cons.mpr ⟨hopt, hopts⟩, by rw [List.flatMap_cons, List.append_assoc]⟩

/-- Every command line starts with options, and then it is at its end or ends early. -/
theorem exists_starts (words : List String) :
    ∃ opts rest, Starts opts rest words ∧ (rest = [] ∨ ∃ e, Ends rest e) := by
  have hstop {rest : List String} {e : Option ArgsError} (h : Ends rest e) :
      ∃ opts rest', Starts opts rest' rest ∧ (rest' = [] ∨ ∃ e, Ends rest' e) :=
    ⟨[], rest, ⟨by simp, rfl⟩, .inr ⟨e, h⟩⟩
  match words with
  | [] => exact ⟨[], [], ⟨by simp, rfl⟩, .inl rfl⟩
  | word :: rest =>
      by_cases hhelp : word = "-h" ∨ word = "--help"
      · exact hstop (.help hhelp)
      by_cases hcopy : word = "--copy"
      · obtain ⟨opts, rest', hstarts, hrest⟩ := exists_starts rest
        exact ⟨.copy :: opts, rest', hcopy ▸ hstarts.cons trivial, hrest⟩
      by_cases hdry : word = "--dry-run"
      · obtain ⟨opts, rest', hstarts, hrest⟩ := exists_starts rest
        exact ⟨.dryRun :: opts, rest', hdry ▸ hstarts.cons trivial, hrest⟩
      cases hname : Flag.ofName word with
      | none => exact hstop (.unknown hhelp hcopy hdry (Flag.ofName_eq_none_iff.mp hname))
      | some flag =>
          obtain rfl := Flag.name_of_ofName hname
          match rest with
          | [] => exact hstop (.last flag)
          | value :: rest =>
              by_cases hvalue : value = ""
              · subst hvalue
                exact hstop (.empty flag rest)
              · obtain ⟨opts, rest', hstarts, hrest⟩ := exists_starts rest
                exact ⟨.valued flag value :: opts, rest', hstarts.cons hvalue, hrest⟩

end Words

/-! ## What a command line asks for -/

section Commands

variable {gameDataDir : Option String} {given : Given} {opt : Opt} {opts : List Opt}
  {words rest : List String} {args : RekeyArgs} {e : ArgsError}

/-- What is given for a flag. -/
def Given.value (given : Given) : Flag → Option String
  | .cacheDir => given.cacheDir
  | .sourceDbUrl => given.dbUrl
  | .mappingCsv => given.csv

theorem Given.value_set (flag : Flag) :
    (given.set opt).value flag = (opt.valueOf flag).or (given.value flag) := by
  cases opt with
  | valued flag' value => cases flag <;> cases flag' <;> rfl
  | copy => cases flag <;> rfl
  | dryRun => cases flag <;> rfl

theorem lastValue_cons (flag : Flag) :
    lastValue flag (opt :: opts) = (lastValue flag opts).or (opt.valueOf flag) := by
  rw [lastValue, List.filterMap_cons]
  cases opt.valueOf flag with
  | none => exact Option.or_none.symm
  | some value =>
      rw [lastValue, List.getLast?_cons]
      cases (opts.filterMap (Opt.valueOf flag)).getLast? <;> rfl

/-- The last value counts. -/
theorem Given.value_foldl (flag : Flag) :
    (opts.foldl Given.set given).value flag = (lastValue flag opts).or (given.value flag) := by
  induction opts generalizing given with
  | nil => rfl
  | cons opt opts ih => rw [List.foldl_cons, ih, Given.value_set, lastValue_cons, Option.or_assoc]

/-- A switch is on once its option is there. -/
theorem Given.switch_foldl {isOn : Given → Bool} {switch : Opt}
    (hset : ∀ given opt, isOn (given.set opt) = true ↔ isOn given = true ∨ switch = opt)
    (hoff : isOn Given.nothing = false) (opts : List Opt) :
    isOn (opts.foldl Given.set Given.nothing) = true ↔ switch ∈ opts := by
  have hfoldl (given : Given) : isOn (opts.foldl Given.set given) = true ↔
      isOn given = true ∨ switch ∈ opts := by
    induction opts generalizing given with
    | nil => simp
    | cons opt opts ih => rw [List.foldl_cons, ih, hset, List.mem_cons, or_assoc]
  rw [hfoldl, hoff, or_iff_right Bool.false_ne_true]

theorem copy_given (opts : List Opt) :
    (opts.foldl Given.set Given.nothing).copy = true ↔ Opt.copy ∈ opts := by
  refine Given.switch_foldl (fun given opt => ?_) rfl opts
  rcases opt with ⟨_ | _ | _, value⟩ | _ | _ <;> simp [Given.set, Given.setValue]

theorem dryRun_given (opts : List Opt) :
    (opts.foldl Given.set Given.nothing).dryRun = true ↔ Opt.dryRun ∈ opts := by
  refine Given.switch_foldl (fun given opt => ?_) rfl opts
  rcases opt with ⟨_ | _ | _, value⟩ | _ | _ <;> simp [Given.set, Given.setValue]

theorem value_given (flag : Flag) (opts : List Opt) :
    (opts.foldl Given.set Given.nothing).value flag = lastValue flag opts := by
  rw [Given.value_foldl]
  cases flag <;> exact Option.or_none

theorem Given.toArgs_eq_ok_iff : given.toArgs gameDataDir = .ok args ↔
    given.cacheDir.or (gameDataDir.filter fun path => path != "") = some args.cacheDir ∧
    (match args.source with
      | .db url => given.dbUrl = some url ∧ given.csv = none
      | .csv path => given.csv = some path ∧ given.dbUrl = none) ∧
    args.copy = given.copy ∧ args.dryRun = given.dryRun := by
  obtain ⟨cacheDir, source, copy, dryRun⟩ := args
  unfold Given.toArgs
  cases given.cacheDir.or (gameDataDir.filter fun path => path != "") with
  | none => simp
  | some dir =>
      cases hurl : given.dbUrl <;> cases hcsv : given.csv <;> cases source <;>
        simp [eq_comm]

/-- The options of a whole command line give these arguments. -/
theorem toArgs_eq_ok_iff :
    (opts.foldl Given.set Given.nothing).toArgs gameDataDir = .ok args ↔
      AsksFor gameDataDir opts args := by
  have hdir := value_given .cacheDir opts
  have hurl := value_given .sourceDbUrl opts
  have hcsv := value_given .mappingCsv opts
  have hcopy : args.copy = (opts.foldl Given.set Given.nothing).copy ↔
      (args.copy = true ↔ Opt.copy ∈ opts) := by
    rw [Bool.eq_iff_iff, copy_given]
  have hdry : args.dryRun = (opts.foldl Given.set Given.nothing).dryRun ↔
      (args.dryRun = true ↔ Opt.dryRun ∈ opts) := by
    rw [Bool.eq_iff_iff, dryRun_given]
  simp only [Given.value] at hdir hurl hcsv
  rw [Given.toArgs_eq_ok_iff, hdir, hurl, hcsv, hcopy, hdry]
  constructor
  · rintro ⟨hdir, hsource, hcopy, hdry⟩
    exact ⟨hdir, hsource, hcopy, hdry⟩
  · rintro ⟨hdir, hsource, hcopy, hdry⟩
    exact ⟨hdir, hsource, hcopy, hdry⟩

/-- Something is wrong with the options as a whole. -/
theorem toArgs_eq_error_iff :
    (opts.foldl Given.set Given.nothing).toArgs gameDataDir = .error e ↔
      Incomplete gameDataDir opts e := by
  have hdir := value_given .cacheDir opts
  have hurl := value_given .sourceDbUrl opts
  have hcsv := value_given .mappingCsv opts
  simp only [Given.value] at hdir hurl hcsv
  rw [Given.toArgs, hdir, hurl, hcsv, ← dirOf]
  constructor
  · intro h
    cases hdir : dirOf gameDataDir opts with
    | none =>
        rw [hdir] at h
        cases h
        exact .noCacheDir hdir
    | some dir =>
        rw [hdir] at h
        cases hurl : lastValue .sourceDbUrl opts with
        | none =>
            cases hcsv : lastValue .mappingCsv opts with
            | none =>
                rw [hurl, hcsv] at h
                cases h
                exact .noSource hdir hurl hcsv
            | some path =>
                rw [hurl, hcsv] at h
                cases h
        | some url =>
            cases hcsv : lastValue .mappingCsv opts with
            | none =>
                rw [hurl, hcsv] at h
                cases h
            | some path =>
                rw [hurl, hcsv] at h
                cases h
                exact .bothSources hdir hurl hcsv
  · rintro (hdir | ⟨hdir, hurl, hcsv⟩ | ⟨hdir, hurl, hcsv⟩)
    · rw [hdir]
    · rw [hdir, hurl, hcsv]
    · rw [hdir, hurl, hcsv]

theorem parseArgs_of_starts (h : Starts opts [] words) :
    parseArgs gameDataDir words =
      ((opts.foldl Given.set Given.nothing).toArgs gameDataDir).map .run := by
  rw [parseArgs, argsLoop_of_starts h]
  rfl

theorem parseArgs_of_ends {why : Option ArgsError} (h : Starts opts rest words)
    (hends : Ends rest why) :
    parseArgs gameDataDir words = match why with
      | none => .ok .help
      | some e => .error e := by
  rw [parseArgs, argsLoop_of_starts h, argsLoop_of_ends hends]
  cases why <;> rfl

theorem parseArgs_eq_run_iff : parseArgs gameDataDir words = .ok (.run args) ↔
    ∃ opts, Starts opts [] words ∧ AsksFor gameDataDir opts args := by
  constructor
  · intro h
    obtain ⟨opts, rest, hstarts, rfl | ⟨why, hends⟩⟩ := exists_starts words
    · rw [parseArgs_of_starts hstarts] at h
      refine ⟨opts, hstarts, toArgs_eq_ok_iff.mp ?_⟩
      cases hgiven : (opts.foldl Given.set Given.nothing).toArgs gameDataDir with
      | error e =>
          rw [hgiven] at h
          cases h
      | ok args' =>
          rw [hgiven] at h
          cases h
          rfl
    · rw [parseArgs_of_ends hstarts hends] at h
      cases why <;> cases h
  · rintro ⟨opts, hstarts, hasks⟩
    rw [parseArgs_of_starts hstarts, toArgs_eq_ok_iff.mpr hasks]
    rfl

theorem parseArgs_eq_help_iff : parseArgs gameDataDir words = .ok .help ↔
    ∃ opts rest, Starts opts rest words ∧ Ends rest none := by
  constructor
  · intro h
    obtain ⟨opts, rest, hstarts, rfl | ⟨why, hends⟩⟩ := exists_starts words
    · rw [parseArgs_of_starts hstarts] at h
      cases hgiven : (opts.foldl Given.set Given.nothing).toArgs gameDataDir <;>
        rw [hgiven] at h <;> cases h
    · rw [parseArgs_of_ends hstarts hends] at h
      cases why with
      | none => exact ⟨opts, rest, hstarts, hends⟩
      | some e => cases h
  · rintro ⟨opts, rest, hstarts, hends⟩
    exact parseArgs_of_ends hstarts hends

theorem parseArgs_eq_error_iff : parseArgs gameDataDir words = .error e ↔
    ∃ opts rest, Starts opts rest words ∧
      (Ends rest (some e) ∨ rest = [] ∧ Incomplete gameDataDir opts e) := by
  constructor
  · intro h
    obtain ⟨opts, rest, hstarts, rfl | ⟨why, hends⟩⟩ := exists_starts words
    · rw [parseArgs_of_starts hstarts] at h
      refine ⟨opts, [], hstarts, .inr ⟨rfl, toArgs_eq_error_iff.mp ?_⟩⟩
      cases hgiven : (opts.foldl Given.set Given.nothing).toArgs gameDataDir with
      | error e' =>
          rw [hgiven] at h
          cases h
          rfl
      | ok args =>
          rw [hgiven] at h
          cases h
    · rw [parseArgs_of_ends hstarts hends] at h
      cases why with
      | none => cases h
      | some e' =>
          cases h
          exact ⟨opts, rest, hstarts, .inl hends⟩
  · rintro ⟨opts, rest, hstarts, hends | ⟨rfl, hwrong⟩⟩
    · exact parseArgs_of_ends hstarts hends
    · rw [parseArgs_of_starts hstarts, toArgs_eq_error_iff.mpr hwrong]
      rfl

/-- Just the command lines of options that ask for a run do run; help is asked for where the
reading gets to it; every other command line is refused for the first thing that is wrong. -/
theorem parseArgs_iff (gameDataDir : Option String) (words : List String) :
    (∀ args, parseArgs gameDataDir words = .ok (.run args) ↔
      ∃ opts, Starts opts [] words ∧ AsksFor gameDataDir opts args) ∧
    (parseArgs gameDataDir words = .ok .help ↔
      ∃ opts rest, Starts opts rest words ∧ Ends rest none) ∧
    (∀ e, parseArgs gameDataDir words = .error e ↔
      ∃ opts rest, Starts opts rest words ∧
        (Ends rest (some e) ∨ rest = [] ∧ Incomplete gameDataDir opts e)) :=
  ⟨fun _ => parseArgs_eq_run_iff, parseArgs_eq_help_iff, fun _ => parseArgs_eq_error_iff⟩

end Commands

/-! ## What the command does -/

section Run

variable {gameDataDir : Option String} {faults : Faults} {world : World} {words : List String}
  {args : RekeyArgs} {dirs' : String → Dir} {rows : List MappingRow} {path : String}

/-- The rows that a source stands for. -/
def Gives (world : World) : RekeySource → List MappingRow → Prop
  | .db url, rows => world.legacy url = some rows
  | .csv path, rows => ∃ text, world.text path = some text ∧ Writes true rows (lines text)

/-- A command line asks for a run with a mapping that can be loaded. -/
def Runs (gameDataDir : Option String) (world : World) (words : List String) (args : RekeyArgs)
    (rows : List MappingRow) : Prop :=
  ∃ opts, Starts opts [] words ∧ AsksFor gameDataDir opts args ∧ Gives world args.source rows

theorem loadRows_eq_ok_iff {source : RekeySource} :
    loadRows world source = .ok rows ↔ Gives world source rows := by
  cases source with
  | db url => cases hrows : world.legacy url <;> simp [loadRows, Gives, hrows]
  | csv path =>
      cases htext : world.text path with
      | none => simp [loadRows, Gives, htext, loadCsv, Except.mapError]
      | some text =>
          simp only [loadRows, Gives, htext, Option.some.injEq, exists_eq_left']
          rw [← loadCsv_eq_ok_iff]
          cases loadCsv (some text) <;> simp [Except.mapError]

/-- A mapping that is written out stands for itself. -/
theorem gives_mappingText (htext : world.text path = some (mappingText rows))
    (hrows : ∀ row ∈ rows, Storable row) : Gives world (.csv path) rows :=
  ⟨_, htext, loadCsv_eq_ok_iff.mp (loadCsv_mappingText hrows)⟩

theorem runs_iff : Runs gameDataDir world words args rows ↔
    parseArgs gameDataDir words = .ok (.run args) ∧ loadRows world args.source = .ok rows := by
  rw [parseArgs_eq_run_iff, loadRows_eq_ok_iff]
  constructor
  · rintro ⟨opts, hstarts, hasks, hrows⟩
    exact ⟨⟨opts, hstarts, hasks⟩, hrows⟩
  · rintro ⟨⟨opts, hstarts, hasks⟩, hrows⟩
    exact ⟨opts, hstarts, hasks, hrows⟩

/-- A command line asks for one run. -/
theorem Runs.unique {args' : RekeyArgs} {rows' : List MappingRow}
    (h : Runs gameDataDir world words args rows) (h' : Runs gameDataDir world words args' rows') :
    args' = args ∧ rows' = rows := by
  obtain ⟨hparse, hrows⟩ := runs_iff.mp h
  obtain ⟨hparse', hrows'⟩ := runs_iff.mp h'
  rw [hparse] at hparse'
  cases hparse'
  rw [hrows] at hrows'
  cases hrows'
  exact ⟨rfl, rfl⟩

end Run

end Rekey
end Statskboo
