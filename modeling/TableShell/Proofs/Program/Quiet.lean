import TableShell.Program
import TableShell.Proofs.Session.Hush

/-!
# Quiet runs

A quiet run of the program goes like a loud one: it works on a hushed store or a hushed rehearsal
(`run_quiet`). So it fails alike or leaves the same behind, and the two differ in what they write to
standard output only, where the quiet one writes prompts, the help and the clearing of the screen
and nothing else (`quiet_changes_stdout_only`).

## Main definitions

- `Store.hush`, `Rehearsal.hush`, `Backend.hush`: the same state with nothing printed from it
- `Backend.contents`: the tables of a store, or what a rehearsal has written down
- `Program.quietText`: what a quiet run writes to standard output
-/

namespace TableShell

/-! ### Hushed stores -/

namespace Store

/-- The store with its notes kept back. -/
def hush (store : Store) : Store :=
  { store with quiet := true }

theorem overFiles_hush {act : Store → String → Except Fault (Store × Note)}
    (acts : ∀ s file, act s.hush file = (act s file).map fun done => (done.1.hush, done.2))
    (store : Store) (files : List String) :
    overFiles act store.hush files =
      { overFiles act store files with store := (overFiles act store files).store.hush } := by
  induction files generalizing store with
  | nil => rfl
  | cons file files ih =>
    rw [overFiles, overFiles, acts]
    cases act store file with
    | error fault => rfl
    | ok done => simp only [Except.map, ih]

theorem updateFile_hush (old new : Chunk) (store : Store) (file : String) :
    updateFile old new store.hush file =
      (updateFile old new store file).map fun done => (done.1.hush, done.2) := by
  have book : store.hush.book = store.book := rfl
  have column (t : Table) (named? : Option String) :
      store.hush.column? t named? = store.column? t named? := rfl
  rw [updateFile, updateFile, book]
  cases store.book.get? file with
  | none => rfl
  | some t =>
    simp only [column]
    cases store.column? t old.column? with
    | none => rfl
    | some oldColumn =>
      simp only
      split
      · cases Table.substitute _ _ _ t with
        | error fault => rfl
        | ok done => rfl
      · rfl

theorem copyInFile_hush (keyColumn source target : String) (store : Store) (file : String) :
    copyInFile keyColumn source target store.hush file =
      (copyInFile keyColumn source target store file).map fun done => (done.1.hush, done.2) := by
  have book : store.hush.book = store.book := rfl
  rw [copyInFile, copyInFile, book]
  cases store.book.get? file with
  | none => rfl
  | some t =>
    simp only
    cases t.columnIndex? keyColumn with
    | none => rfl
    | some key =>
      simp only
      cases t.copyRow key source target with
      | error fault => rfl
      | ok copied? =>
        cases copied? with
        | none => rfl
        | some copied => rfl

/-- Whether notes are kept back makes no difference to what comes of a request. -/
theorem perform_hush (store : Store) (request : Request) (files : List String) :
    store.hush.perform request files =
      { store.perform request files with store := (store.perform request files).store.hush } := by
  cases request with
  | search target => rfl
  | update old new =>
    simp only [perform, update]
    split
    · exact overFiles_hush (updateFile_hush old new) store files
    · rfl
  | copy keyColumn source target =>
    simp only [perform, copy, overFiles_hush (copyInFile_hush keyColumn source target)]
    split
    · rfl
    · rfl

theorem hushedBy_hush : engine.HushedBy hush where
  select _ _ := rfl
  perform := by
    intro store request files
    simp only [engine, perform_hush, Outcome.reply]
    rfl

end Store

/-- The rehearsal with its lines kept back. -/
def Rehearsal.hush (rehearsal : Rehearsal) : Rehearsal :=
  { rehearsal with quiet := true }

theorem Rehearsal.hushedBy_hush : engine.HushedBy hush where
  select _ _ := rfl
  perform _ _ _ := rfl

namespace Backend

/-- The backend with everything that it would print kept back. -/
def hush : Backend → Backend :=
  Sum.map Store.hush Rehearsal.hush

/-- The tables of a store, or what a rehearsal has written down. -/
def contents : Backend → Workbook ⊕ List String :=
  Sum.map Store.book Rehearsal.recorded

theorem contents_hush (backend : Backend) : backend.hush.contents = backend.contents := by
  cases backend with
  | inl store => rfl
  | inr rehearsal => rfl

end Backend

/-! ### Quiet runs -/

namespace Program

theorem hushedBy_hush : engine.HushedBy Backend.hush :=
  Store.hushedBy_hush.sum Rehearsal.hushedBy_hush

variable (settings : Settings) (decode : DataFile.Decoder)

/-- A quiet run starts in the hushed state of a loud one, and nothing is printed. -/
theorem backend_quiet (content : DataFile.Content) :
    backend { settings with quiet := true } content decode =
      (backend { settings with quiet := false } content decode).map fun opened =>
        (opened.1.hush, opened.2.withoutLines) := by
  rw [backend, backend]
  cases settings.dataFile? with
  | none => rfl
  | some path =>
    simp only
    cases DataFile.load content decode with
    | error error => rfl
    | ok loaded => rfl

theorem start_quiet (commands : List String) (content : DataFile.Content) :
    start { settings with quiet := true } commands content decode =
      (start { settings with quiet := false } commands content decode).map fun started =>
        (started.1.hush, started.2.withoutLines) := by
  rw [start, start, backend_quiet]
  cases backend { settings with quiet := false } content decode with
  | error error => rfl
  | ok opened =>
    simp only [Except.map, Transcript.withoutLines_append]
    split
    · rfl
    · rfl

theorem session_quiet (commands : List String) (state : Backend) (input : List UInt8) :
    session { settings with quiet := true } commands state.hush input =
      (session { settings with quiet := false } commands state input).hushed Backend.hush := by
  rw [session, session]
  split
  · rw [Session.interact_hush hushedBy_hush]
  · rw [Session.runLines_hush hushedBy_hush]

/-- A quiet run is a loud one with the state hushed and the lines left out. -/
theorem run_quiet (commands : List String) (content : DataFile.Content) (input : List UInt8) :
    run { settings with quiet := true } commands content input decode =
      (run { settings with quiet := false } commands content input decode).map
        (Session.Outcome.hushed Backend.hush) := by
  rw [run, run, start_quiet]
  cases start { settings with quiet := false } commands content decode with
  | error error => rfl
  | ok started =>
    simp only [Except.map, session_quiet, Session.Outcome.hushed, Transcript.withoutLines_append]

/-- What a quiet run writes to standard output. Over its input it is a prompt in front of each line
that is taken and the answer to the line, and a prompt and a newline at the end of the input if no
line has stopped the session; over lines of the arguments it is the answers alone. -/
def quietText (clearing : String) (commands : List String) (input : List UInt8) : String :=
  if commands = [] then
    let lines := (Utf8.lines input).map Utf8.decodeLossy
    String.join ((Session.taken lines).map fun line =>
        settings.prompt ++ Session.quietAnswer clearing line) ++
      if lines.any Session.endsSession then "" else settings.prompt ++ "\n"
  else
    String.join ((Session.taken commands).map (Session.quietAnswer clearing))

theorem withoutLines_progressLine (text : String) :
    (progressLine settings text).withoutLines = [] := by
  rw [progressLine]
  split
  · rfl
  · rfl

theorem withoutLines_backend {content : DataFile.Content} {state : Backend} {opening : Transcript}
    (opened : backend settings content decode = .ok (state, opening)) :
    opening.withoutLines = [] := by
  rw [backend] at opened
  cases place : settings.dataFile? with
  | none =>
    rw [place] at opened
    cases opened
    rfl
  | some path =>
    simp only [place] at opened
    cases loaded : DataFile.load content decode with
    | error error =>
      rw [loaded] at opened
      cases opened
    | ok store =>
      rw [loaded] at opened
      cases opened
      exact withoutLines_progressLine settings _

theorem withoutLines_start {commands : List String} {content : DataFile.Content}
    {state : Backend} {opening : Transcript}
    (started : start settings commands content decode = .ok (state, opening)) :
    opening.withoutLines = [] := by
  rw [start] at started
  cases opened : backend settings content decode with
  | error error =>
    rw [opened] at started
    cases started
  | ok backend =>
    rw [opened] at started
    cases started
    rw [Transcript.withoutLines_append, withoutLines_backend settings decode opened]
    split
    · exact withoutLines_progressLine settings _
    · rfl

theorem stdout_session (clearing : String) (commands : List String) (state : Backend)
    (input : List UInt8) :
    (session settings commands state input).transcript.withoutLines.stdout .quiet clearing =
      quietText settings clearing commands input := by
  rw [session, quietText]
  split
  · exact Session.stdout_interactLines clearing settings.prompt state (Utf8.lines input)
  · exact Session.stdout_runLines clearing state commands

theorem stdout_run (clearing : String) {commands : List String} {content : DataFile.Content}
    {input : List UInt8} {outcome : Session.Outcome Backend}
    (ran : run settings commands content input decode = .ok outcome) :
    outcome.transcript.withoutLines.stdout .quiet clearing =
      quietText settings clearing commands input := by
  rw [run] at ran
  cases started : start settings commands content decode with
  | error error =>
    rw [started] at ran
    cases ran
  | ok opened =>
    rw [started] at ran
    cases ran
    rw [Transcript.withoutLines_append, withoutLines_start settings decode started]
    exact stdout_session settings clearing commands opened.1 input

/-- Whether a run is quiet makes a difference to standard output only. Either both runs fail, and
they do so alike, or neither fails: then they go the same way, leave the same tables, or the same
record of a rehearsal, behind and write the same to standard error. What the quiet one writes to
standard output is settled by the lines that are taken: prompts, the help and the clearing of the
screen. Neither the decoder of the data file nor the text that clears the screen matters. -/
theorem quiet_changes_stdout_only (clearing : String) (commands : List String)
    (content : DataFile.Content) (input : List UInt8) :
    let hushed := { settings with quiet := true }
    let loud := { settings with quiet := false }
    match run hushed commands content input decode, run loud commands content input decode with
    | .error one, .error other => one = other
    | .ok one, .ok other =>
      one.summary = other.summary ∧ one.state.contents = other.state.contents ∧
        one.transcript.stderr (console hushed) = other.transcript.stderr (console loud) ∧
        one.transcript.stdout (console hushed) clearing =
          quietText settings clearing commands input
    | _, _ => False := by
  intro hushed loud
  rw [run_quiet]
  cases ran : run loud commands content input decode with
  | error error => rfl
  | ok outcome =>
    have showsProgress : console loud = .verbose := rfl
    have showsNone : console hushed = .quiet := rfl
    rw [showsProgress, showsNone]
    refine ⟨rfl, ?_, ?_, ?_⟩
    · exact Backend.contents_hush outcome.state
    · exact (Transcript.stderr_withoutLines .quiet _).trans (Transcript.stderr_quiet _)
    · exact stdout_run loud decode clearing ran

end Program

end TableShell
