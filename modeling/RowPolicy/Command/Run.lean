import RowPolicy.Access.Client
import RowPolicy.Admin
import RowPolicy.Command.Config
import RowPolicy.Command.Host
import RowPolicy.Command.Invocation
import RowPolicy.Command.Params
import RowPolicy.Command.Report
import RowPolicy.Document.Decode

/-!
# Running commands

A command finds its configuration, opens the database and does its work. What administration did
to the database is kept, also if the command fails later: tables of the store that were created
stay, and everything else is undone.
-/

namespace RowPolicy.Command

/-- What a run leaves behind. -/
structure Outcome where
  code : Nat
  output : String := ""
  errors : String := ""
  deriving DecidableEq, Repr, Inhabited

section

variable {m : Type → Type} [Monad m]

/-! ### Configuration -/

def Failure.ofConfig (e : ConfigError) : Failure :=
  match e with
  | .unreadable _ fault => ⟨e.message, [fault.message]⟩
  | .invalid _ => ⟨e.message, []⟩

def loadConfig (h : Host m) (path : String) : ExceptT Failure m Config := do
  let content ← h.readText path
  match Config.load path content with
  | .ok config => pure config
  | .error e => throw (.ofConfig e)

def configPaths (home : Option String) : List String :=
  "tablegate.toml" :: home.toList.map (· ++ "/tablegate/config.toml")

def firstConfig (h : Host m) : List String → ExceptT Failure m Config
  | [] => pure {}
  | path :: rest => do
    let found ← h.isFile path
    if found then loadConfig h path else firstConfig h rest

/-- The configuration of a run. A file that is asked for must exist. -/
def configure (h : Host m) (given : Given) : ExceptT Failure m Config := do
  let config ← match given.get? "config" with
    | some path => loadConfig h path
    | none => do
      let home ← h.configHome
      firstConfig h (configPaths home)
  pure (match given.get? "database" with
    | some path => { config with database := path }
    | none => config)

/-! ### Databases -/

/-- Whether a database at this path is never kept. -/
def isTransient (path : String) : Bool := path.isEmpty || path == ":memory:"

def openFailure (path : String) (causes : List String) : Failure :=
  ⟨"failed to open " ++ path, causes⟩

def openDatabase (h : Host m) (path : String) : ExceptT Failure m Database := do
  if isTransient path then pure {}
  else
    match ← h.openDatabase path with
    | some db => pure db
    | none => throw (openFailure path ["unable to open database file: " ++ path])

def saveDatabase (h : Host m) (path : String) (db : Database) : ExceptT Failure m Unit := do
  if isTransient path then pure () else h.saveDatabase path db

/-- Administer the database: prepare the store, do the work and keep the result. -/
def withAdmin (h : Host m) (config : Config)
    (work : Admin.Setting → Database → Except Failure (Database × String)) :
    ExceptT Failure m String := do
  let db ← openDatabase h config.database
  let ids ← h.freshIds
  let now ← h.now
  let (db, started) := Admin.start false db
  let result : Except Failure (Database × String) :=
    match started with
    | .error e => .error (openFailure config.database [(Failure.ofAdmin e).message])
    | .ok () => work ⟨config.naming, ids, now⟩ db
  match result with
  | .ok (db, output) => do
    saveDatabase h config.database db
    pure output
  | .error f => do
    saveDatabase h config.database db
    throw f

def calling {α : Type} (steps : Admin.Setting → Admin.Work → Admin.Result (Admin.Work × α))
    (report : α → String) (s : Admin.Setting) (db : Database) :
    Except Failure (Database × String) :=
  match Admin.transaction s.naming false db 0 (steps s) with
  | .ok (db, _, a) => .ok (db, report a)
  | .error e => .error (.ofAdmin e)

def showing {α : Type} (load : Database → Store.Stored α) (report : α → String)
    (_ : Admin.Setting) (db : Database) : Except Failure (Database × String) :=
  match load db with
  | .ok a => .ok (db, report a)
  | .error e => .error (.ofStore e)

/-- Read from the database on behalf of a caller. -/
def withClient (h : Host m) (config : Config) (table : String) (caller : Option String)
    (ask : Request → Database → Accessed (List Json.Fields)) : ExceptT Failure m String := do
  let db ← openDatabase h config.database
  let request := (Client.connect db).request ⟨caller⟩ table false
  match ask request db with
  | .ok rows => pure (rowText rows)
  | .error e => throw (.ofAccess e)

/-! ### Actions -/

def within {α : Type} (context : String) (r : Except Failure α) : Except Failure α :=
  r.mapError (Failure.within context)

def applyFile (h : Host m) (config : Config) (file : String) : ExceptT Failure m String := do
  let content ← h.readText file
  match Document.load file content with
  | .error e => throw ((Failure.ofDefinition e).within ("failed to load policy " ++ file))
  | .ok document =>
    withAdmin h config fun s db =>
      within "policy rejected; nothing was changed"
        (calling (fun s w => Admin.applyDocument s w document)
          (fun summaries => summaryText summaries
            ("Applied " ++ Number.natText document.claims.length ++ " claim(s) and "
              ++ Number.natText document.rules.length ++ " rule(s) from " ++ file ++ ".")) s db)

/-- Do what is asked; the text to be printed. -/
def perform (h : Host m) (config : Config) : Action → ExceptT Failure m String
  | .apply file => applyFile h config file
  | .listRules => withAdmin h config (showing Store.rules ruleListing)
  | .dropRules table operation =>
    withAdmin h config (calling
      (fun _ w =>
        match operation with
        | some op => Admin.dropRule w ⟨table, op⟩
        | none => Admin.dropRules w table)
      fun removed => unlines
        ["Removed " ++ Number.natText removed ++ " artifact(s) for '" ++ table ++ "'."])
  | .listClaims => withAdmin h config (showing Store.claims claimListing)
  | .dropClaim name =>
    withAdmin h config (calling (fun _ w => Admin.dropClaim w name) fun removed => unlines
      ["Dropped claim '" ++ name ++ "' (" ++ Number.natText removed ++ " artifact(s) removed)."])
  | .listArtifacts => withAdmin h config (showing Store.artifacts artifactListing)
  | .rebuild =>
    withAdmin h config fun s db =>
      within "rebuild failed; nothing was changed"
        (calling Admin.rebuild
          (fun summaries => summaryText summaries
            ("Rebuilt " ++ Number.natText summaries.length ++ " definition(s).")) s db)
  | .read table caller => withClient h config table caller fun q db => q.read db
  | .fetch table caller params => do
    match parseParams params with
    | .error e => throw ⟨e.message, []⟩
    | .ok fields => withClient h config table caller fun q db => q.fetch db fields

def run (h : Host m) (args : List String) : m Outcome := do
  match parseArgs args with
  | .usage => pure { code := 2, errors := form.helpText commonSwitches [programName] }
  | .version => pure { code := 0, output := versionText }
  | .help words f => pure { code := 0, output := f.helpText commonSwitches words }
  | .run action given =>
    let result ← (do
      let config ← configure h given
      perform h config action : ExceptT Failure m String).run
    match result with
    | .ok output => pure { code := 0, output := output }
    | .error f => pure { code := 1, errors := f.text }

end

end RowPolicy.Command
