import GuardedConfig.CommandLine
import GuardedConfig.Proofs.Cache
import GuardedConfig.Proofs.Reinstallation

/-!
# `Proofs.KeptDatabase` — what a source that does not compile leaves of the database

A run finds the faults of a source in two places. Its tokens and its statements are read before anything else is
touched. Its declarations and its triggers are compiled when the artifact is loaded, and by then the database has been
removed if a fresh one is wanted. So the database file stays as it was, except that a fault of the declarations leaves
an empty one where a fresh one was wanted.

The database has to be a file of its own: the artifact of the source is written, and the file of its tokens is removed.

## Contents

* `Directory.content?_write_self`, `content?_remove_of_ne`, … — files
* `Error.IsSourceFault`, `load_eq_error` — faults of a source
* `outcome_lex`, `outcome_obtain`, `obtain_again` — obtaining the artifact
* `Apart`, `content?_obtain` — the database is left alone
* `refresh_outcome`, `load_cases` — the store
* `runWith_cases`, `database_of_rejected`, `rejected_source_costs_database` — a run
-/

namespace GuardedConfig

/-! ## Files -/

theorem Json.lookup_insertMember_self {α : Type} (key : String) (value : α) (ms : List (String × α)) :
    (insertMember key value ms).lookup key = some value := by
  induction ms with
  | nil => simp [insertMember]
  | cons m ms ih =>
    obtain ⟨k, v⟩ := m
    unfold insertMember
    split
    · simp
    split
    · simp
    · rename_i hne
      rw [List.lookup_cons, beq_false_of_ne hne]
      exact ih

theorem Json.lookup_insertMember_of_ne {α : Type} {key other : String} (h : other ≠ key) (value : α)
    (ms : List (String × α)) : (insertMember key value ms).lookup other = ms.lookup other := by
  have hskip : ∀ rest : List (String × α), List.lookup other ((key, value) :: rest) = rest.lookup other := by
    intro rest
    rw [List.lookup_cons, beq_false_of_ne h]
  induction ms with
  | nil => exact hskip []
  | cons m ms ih =>
    obtain ⟨k, v⟩ := m
    unfold insertMember
    split
    · exact hskip _
    split
    · rename_i hkey
      subst hkey
      rw [hskip, List.lookup_cons, beq_false_of_ne h]
    · rw [List.lookup_cons, List.lookup_cons, ih]

namespace Directory

variable {d : Directory} {path other name : String} {c : FileContent}

theorem content?_write_self (h : fileName? path = some name) : (d.write path c).content? path = some c := by
  unfold content? write
  rw [h]
  exact Json.lookup_insertMember_self name c d

theorem content?_write_of_ne (h : fileName? other ≠ fileName? path) :
    (d.write path c).content? other = d.content? other := by
  unfold content? write
  cases hpath : fileName? path with
  | none => rfl
  | some name =>
    cases hother : fileName? other with
    | none => rfl
    | some otherName =>
      rw [hpath, hother] at h
      exact Json.lookup_insertMember_of_ne (fun heq => h (congrArg some heq)) c d

/-- The name of a file is not found any more, and all others are. -/
theorem lookup_filter_ne (name otherName : String) : (d.filter (·.1 != name)).lookup otherName =
    if otherName = name then none else d.lookup otherName := by
  induction d with
  | nil => simp
  | cons file d ih =>
    obtain ⟨k, content⟩ := file
    by_cases hk : k = name
    · subst hk
      rw [List.filter_cons_of_neg (by simp), ih, List.lookup_cons]
      split
      · rfl
      · rename_i hne
        rw [beq_false_of_ne hne]
    · rw [List.filter_cons_of_pos (by simpa using hk), List.lookup_cons, List.lookup_cons, ih]
      by_cases hother : otherName = k
      · subst hother
        simp [hk]
      · rw [beq_false_of_ne hother]

theorem content?_remove_self : (d.remove path).content? path = none := by
  unfold content? remove
  cases fileName? path with
  | none => rfl
  | some name => exact (lookup_filter_ne name name).trans (if_pos rfl)

theorem content?_remove_of_ne (h : fileName? other ≠ fileName? path) :
    (d.remove path).content? other = d.content? other := by
  unfold content? remove
  cases hpath : fileName? path with
  | none => rfl
  | some name =>
    cases hother : fileName? other with
    | none => rfl
    | some otherName =>
      rw [hpath, hother] at h
      exact (lookup_filter_ne name otherName).trans (if_neg fun heq => h (congrArg some heq))

end Directory

/-! ## Faults -/

/-- Faults of a source: its tokens, its statements, or its declarations and triggers do not compile. -/
def Error.IsSourceFault : Error → Prop
  | .tokenStream _ | .parse _ | .compile _ => True
  | _ => False

instance : DecidablePred Error.IsSourceFault
  | .tokenStream _ | .parse _ | .compile _ => .isTrue ⟨⟩
  | .settings _ | .binding _ | .store _ | .trigger .. | .fieldLookup .. | .unknownField _ | .artifact => .isFalse id

namespace Registry

/-- Loading fails in the store, or because the declarations cannot be prepared, and then nothing is installed. -/
theorem load_eq_error {a : Artifact} {store after : Store} {e : Error} (h : load a store = (.error e, after)) :
    (∃ fault, e = .store fault) ∨
      (∃ fault, e = .compile fault) ∧ prepare a.declarations = .error e ∧ after = store := by
  cases hprepare : prepare a.declarations with
  | error e' =>
    unfold load at h
    rw [hprepare] at h
    cases h
    obtain ⟨fault, hfault, -⟩ := prepare_eq_error hprepare
    exact .inr ⟨⟨fault, hfault⟩, rfl, rfl⟩
  | ok prepared =>
    obtain ⟨schema, triggers⟩ := prepared
    have hisOk := (load_of_prepare hprepare store).1
    rw [h] at hisOk
    unfold load at h
    rw [hprepare] at h
    dsimp only at h
    rcases hinstall : outcome (install schema.units) store with ⟨e' | ⟨⟩, installed⟩
    · rw [show (install schema.units).run.run store = _ from hinstall] at h
      cases h
      obtain ⟨done, unit, rest, before, -, -, hunit⟩ := install_eq_error hinstall
      exact .inl (installUnit_eq_error hunit)
    · -- nothing fails after the installation
      rw [hinstall] at hisOk
      cases hisOk

end Registry

namespace CommandLine

variable {programs : Programs} {settings : Settings} {path source db name : String} {w w' : World} {a : Artifact}
  {content : FileContent}

/-! ## Reading a source -/

/-- The result of starting the lexer, which changes no file that is seen here. -/
def started (programs : Programs) (settings : Settings) : Except Error Unit :=
  match settings.lexer with
  | none => .ok ()
  | some lexer => (outcome (startLexer programs lexer) default).1

theorem started_eq_error {e : Error} (h : started programs settings = .error e) :
    e = .artifact ∨ ∃ fault, e = .tokenStream fault := by
  unfold started at h
  cases hlexer : settings.lexer with
  | none =>
    rw [hlexer] at h
    cases h
  | some lexer =>
    rw [hlexer] at h
    dsimp only at h
    unfold startLexer at h
    split at h <;> cases h
    · exact .inl rfl
    · exact .inr ⟨_, rfl⟩

theorem outcome_startLexer (lexer : String) :
    outcome (startLexer programs lexer) w = ((outcome (startLexer programs lexer) default).1, w) := by
  unfold startLexer
  split <;> rfl

/-- The tokens of a source are read from their file, which is removed if a lexer has written it. -/
theorem outcome_lex : outcome (lex programs settings path) w =
    match started programs settings with
    | .error e => (.error e, w)
    | .ok () =>
      match w.directory.text? (tokenPath path) with
      | none => (.error (.tokenStream (.unreadable (tokenPath path) (missingFile (tokenPath path)))), w)
      | some text => ((Token.readStream text).mapError .tokenStream,
        if settings.lexer.isSome then { w with directory := w.directory.remove (tokenPath path) } else w) := by
  unfold lex started
  cases hlexer : settings.lexer with
  | none =>
    dsimp only
    rw [outcome_bind_ok (outcome_get w)]
    cases w.directory.text? (tokenPath path) with
    | none => rfl
    | some text =>
      dsimp only
      cases Token.readStream text <;> rfl
  | some lexer =>
    dsimp only
    rw [outcome_bind, outcome_startLexer]
    cases (outcome (startLexer programs lexer) default).1 with
    | error e => rfl
    | ok u =>
      dsimp only
      rw [outcome_bind_ok (outcome_get w)]
      cases w.directory.text? (tokenPath path) with
      | none => rfl
      | some text =>
        dsimp only
        cases Token.readStream text <;> rfl

/-- Reading the tokens changes at most one file, which has been read as a text and is removed. -/
theorem lex_cases {r : Except Error (List Token)} (h : outcome (lex programs settings path) w = (r, w')) :
    (w' = w ∨ (w.directory.text? (tokenPath path)).isSome ∧
      w' = { w with directory := w.directory.remove (tokenPath path) }) ∧
    ∀ e, r = .error e → e = .artifact ∨ ∃ fault, e = .tokenStream fault := by
  rw [outcome_lex] at h
  cases hstarted : started programs settings with
  | error e =>
    rw [hstarted] at h
    cases h
    exact ⟨.inl rfl, fun _ he => by cases he; exact started_eq_error hstarted⟩
  | ok u =>
    rw [hstarted] at h
    dsimp only at h
    cases htext : w.directory.text? (tokenPath path) with
    | none =>
      rw [htext] at h
      cases h
      exact ⟨.inl rfl, fun _ he => by cases he; exact .inr ⟨_, rfl⟩⟩
    | some text =>
      rw [htext] at h
      dsimp only at h
      obtain ⟨rfl, rfl⟩ := Prod.mk.inj h
      constructor
      · split
        · exact .inr ⟨rfl, rfl⟩
        · exact .inl rfl
      · intro e he
        cases hread : Token.readStream text with
        | ok tokens =>
          rw [hread] at he
          cases he
        | error fault =>
          rw [hread] at he
          cases he
          exact .inr ⟨fault, rfl⟩

/-- The text of an artifact, if there is one, is written to its file. -/
def World.stored (w : World) (path : String) : Option String → World
  | some text => { w with directory := w.directory.write (artifactPath path) (.text text) }
  | none => w

theorem content?_stored (h : fileName? db ≠ fileName? (artifactPath path)) (file : Option String) :
    (w.stored path file).directory.content? db = w.directory.content? db := by
  cases file with
  | none => rfl
  | some text =>
    dsimp only [World.stored]
    exact Directory.content?_write_of_ne h

/-- The artifact of a source is the stored one, or it is made of the tokens and stored. Where the statements cannot be
read, the text that was there is written again. -/
theorem outcome_obtain : outcome (obtain programs settings path source) w =
    match Artifact.stored? (w.directory.text? (artifactPath path)) source with
    | some a => (.ok a, w)
    | none =>
      match outcome (lex programs settings path) w with
      | (.error e, after) => (.error e, after)
      | (.ok tokens, after) =>
        match Artifact.compile source tokens with
        | .ok a => (.ok a, after.stored path (some a.text))
        | .error e => (.error e, after.stored path (w.directory.text? (artifactPath path))) := by
  unfold obtain
  rw [outcome_bind_ok (outcome_get w)]
  dsimp only
  cases hstored : Artifact.stored? (w.directory.text? (artifactPath path)) source with
  | some a => rfl
  | none =>
    dsimp only
    rw [outcome_bind]
    rcases outcome (lex programs settings path) w with ⟨e | tokens, after⟩
    · rfl
    · dsimp only
      rw [Cache.obtain_of_none hstored]
      dsimp only [Except.bind]
      cases Artifact.compile source tokens with
      | ok a => rfl
      | error e => cases w.directory.text? (artifactPath path) <;> rfl

/-- How an artifact has been obtained: it was stored, or it has been compiled and is stored now. -/
theorem obtain_eq_ok (h : outcome (obtain programs settings path source) w = (.ok a, w')) :
    (Artifact.stored? (w.directory.text? (artifactPath path)) source = some a ∧ w' = w) ∨
    ∃ tokens after, outcome (lex programs settings path) w = (.ok tokens, after) ∧
      Artifact.compile source tokens = .ok a ∧ w' = after.stored path (some a.text) := by
  rw [outcome_obtain] at h
  cases hstored : Artifact.stored? (w.directory.text? (artifactPath path)) source with
  | some b =>
    rw [hstored] at h
    cases h
    exact .inl ⟨rfl, rfl⟩
  | none =>
    rw [hstored] at h
    rcases hlex : outcome (lex programs settings path) w with ⟨e | tokens, after⟩
    · rw [hlex] at h
      cases h
    · rw [hlex] at h
      dsimp only at h
      cases hcompile : Artifact.compile source tokens with
      | error e =>
        rw [hcompile] at h
        cases h
      | ok b =>
        rw [hcompile] at h
        cases h
        exact .inr ⟨tokens, after, rfl, hcompile, rfl⟩

/-- An artifact that has been obtained is obtained again for the same source, whatever lexer there is by then. -/
theorem obtain_again (hname : fileName? (artifactPath path) = some name)
    (h : outcome (obtain programs settings path source) w = (.ok a, w')) (programs' : Programs) (settings' : Settings) :
    outcome (obtain programs' settings' path source) w' = (.ok a, w') := by
  have hstored : Artifact.stored? (w'.directory.text? (artifactPath path)) source = some a := by
    obtain ⟨hstored, rfl⟩ | ⟨tokens, after, -, hcompile, rfl⟩ := obtain_eq_ok h
    · exact hstored
    · have htext : (after.stored path (some a.text)).directory.text? (artifactPath path) = some a.text := by
        dsimp only [World.stored, Directory.text?]
        rw [Directory.content?_write_self hname]
      rw [htext]
      exact Artifact.stored?_text hcompile
  rw [outcome_obtain, hstored]

/-- Obtaining an artifact fails before its declarations are looked at, and writes no other artifact. -/
theorem obtain_eq_error {e : Error} (h : outcome (obtain programs settings path source) w = (.error e, w')) :
    (e = .artifact ∨ (∃ fault, e = .tokenStream fault) ∨ ∃ stop, e = .parse stop) ∧
      ∃ result after file, outcome (lex programs settings path) w = (result, after) ∧ w' = after.stored path file := by
  rw [outcome_obtain] at h
  cases hstored : Artifact.stored? (w.directory.text? (artifactPath path)) source with
  | some b =>
    rw [hstored] at h
    cases h
  | none =>
    rw [hstored] at h
    rcases hlex : outcome (lex programs settings path) w with ⟨e' | tokens, after⟩
    · rw [hlex] at h
      cases h
      exact ⟨((lex_cases hlex).2 e rfl).imp_right .inl, _, _, none, rfl, rfl⟩
    · rw [hlex] at h
      dsimp only at h
      cases hcompile : Artifact.compile source tokens with
      | ok b =>
        rw [hcompile] at h
        cases h
      | error e' =>
        rw [hcompile] at h
        obtain ⟨stop, -, rfl⟩ := Artifact.compile_eq_error.1 hcompile
        cases h
        exact ⟨.inr (.inr ⟨stop, rfl⟩), _, after, _, rfl, rfl⟩

/-- The database is a file of its own: not the artifact of the source, and not a text that stands where its tokens
do. -/
def Apart (d : Directory) (db path : String) : Prop :=
  fileName? db ≠ fileName? (artifactPath path) ∧
    (fileName? db = fileName? (tokenPath path) → d.text? db = none)

/-- What is removed after reading the tokens has been read as a text. -/
theorem content?_lex {r : Except Error (List Token)} (hapart : Apart w.directory db path)
    (h : outcome (lex programs settings path) w = (r, w')) : w'.directory.content? db = w.directory.content? db := by
  rcases (lex_cases h).1 with rfl | ⟨htext, rfl⟩
  · rfl
  · -- at the path of the database there is no text that could have been read
    have hne : fileName? db ≠ fileName? (tokenPath path) := by
      intro hname
      have hsame : w.directory.text? db = w.directory.text? (tokenPath path) := by
        unfold Directory.text? Directory.content?
        rw [hname]
      rw [← hsame, hapart.2 hname] at htext
      cases htext
    dsimp only
    exact Directory.content?_remove_of_ne hne

/-- Obtaining an artifact leaves the database alone, whether or not it succeeds. -/
theorem content?_obtain {r : Except Error Artifact} (hapart : Apart w.directory db path)
    (h : outcome (obtain programs settings path source) w = (r, w')) :
    w'.directory.content? db = w.directory.content? db := by
  cases r with
  | ok a =>
    obtain ⟨-, rfl⟩ | ⟨tokens, after, hlex, -, rfl⟩ := obtain_eq_ok h
    · rfl
    · exact (content?_stored hapart.1 _).trans (content?_lex hapart hlex)
  | error e =>
    obtain ⟨-, result, after, file, hlex, rfl⟩ := obtain_eq_error h
    exact (content?_stored hapart.1 file).trans (content?_lex hapart hlex)

/-! ## The store -/

/-- Refreshing never fails, and where a fresh database is wanted there is none afterwards. -/
theorem refresh_outcome (hlocation : settings.location = .file db) : ∃ after,
    outcome (refresh settings) w = (.ok (), after) ∧
      after.directory.content? db = if settings.freshDatabase then none else w.directory.content? db := by
  unfold refresh
  rw [hlocation]
  dsimp only
  rw [outcome_bind_ok (outcome_get w)]
  cases hfresh : settings.freshDatabase with
  | false => exact ⟨w, rfl, rfl⟩
  | true =>
    cases hexists : w.directory.exists? db with
    | true => exact ⟨_, rfl, Directory.content?_remove_self⟩
    | false =>
      refine ⟨w, rfl, ?_⟩
      rw [Directory.exists?, Option.isSome_eq_false_iff, Option.isNone_iff_eq_none] at hexists
      simp [hexists]

/-- Loads an artifact on a content, and writes what is committed to the file of the store. -/
def loadOn (db : String) (a : Artifact) (c : Sql.Content) : Task World Registry := do
  modifyDirectory (·.write db (.database (Registry.load a (.ofContent c)).2.session.committed))
  Task.ofExcept (Registry.load a (.ofContent c)).1

theorem loadOn_eq_error {c : Sql.Content} {e : Error} (hname : fileName? db = some name)
    (h : outcome (loadOn db a c) w = (.error e, w')) :
    (∃ fault, e = .store fault) ∨ (∃ fault, e = .compile fault) ∧ Registry.prepare a.declarations = .error e ∧
      w'.directory.content? db = some (.database c) := by
  obtain ⟨hresult, rfl⟩ := Prod.mk.inj h
  have hload : Registry.load a (.ofContent c) = (.error e, (Registry.load a (.ofContent c)).2) := Prod.ext hresult rfl
  refine (Registry.load_eq_error hload).imp_right fun ⟨hcompile, hprepare, hstore⟩ => ⟨hcompile, hprepare, ?_⟩
  dsimp only
  rw [hstore]
  exact Directory.content?_write_self hname

/-- Loading fails in the store, or because the declarations are rejected. Then the file of the store stays as it was,
and is made if there was none. -/
theorem load_cases {e : Error} (hlocation : settings.location = .file db) (hname : fileName? db = some name)
    (h : outcome (load settings a) w = (.error e, w')) :
    (∃ fault, e = .store fault) ∨ (∃ fault, e = .compile fault) ∧
      w'.directory.content? db = some ((w.directory.content? db).getD (.database {})) := by
  unfold load at h
  rw [hlocation] at h
  dsimp only at h
  rw [hname, if_neg (by simp), outcome_bind_ok (outcome_get w)] at h
  cases hcontent : w.directory.content? db with
  | none =>
    rw [hcontent] at h
    exact (loadOn_eq_error hname (h : outcome (loadOn db a {}) w = _)).imp_right fun hrejected =>
      ⟨hrejected.1, hrejected.2.2⟩
  | some content =>
    rw [hcontent] at h
    cases content with
    | database c =>
      exact (loadOn_eq_error hname (h : outcome (loadOn db a c) w = _)).imp_right fun hrejected =>
        ⟨hrejected.1, hrejected.2.2⟩
    | text s =>
      dsimp only at h
      cases hprepare : Registry.prepare a.declarations with
      | error e' =>
        rw [hprepare] at h
        cases h
        obtain ⟨fault, hfault, -⟩ := Registry.prepare_eq_error hprepare
        exact .inr ⟨⟨fault, hfault⟩, hcontent⟩
      | ok prepared =>
        rw [hprepare, outcome_bind_ok (outcome_ofExcept _ _)] at h
        split at h
        · cases h
          exact .inl ⟨_, rfl⟩
        · -- what has been prepared is not rejected
          refine (loadOn_eq_error hname (h : outcome (loadOn db a {}) w = _)).imp_right fun hrejected => ?_
          rw [hprepare] at hrejected
          cases hrejected.2.1

/-! ## A run -/

theorem outcome_readText : outcome (readText path) w =
    match w.directory.text? path with
    | some text => (.ok text, w)
    | none => (.error .artifact, w) := by
  unfold readText
  rw [outcome_bind_ok (outcome_get w)]
  cases w.directory.text? path <;> rfl

/-- What is logged at the end of a run never fails. -/
theorem logs_keeps (r : Registry) (line : String × String → String) (last : String) :
    Keeps (fun _ => True) (fun _ => False) (do
      for x in r.metadata do log (line x)
      log last) := by
  have hlog : ∀ line, Keeps (fun _ => True) (fun _ => False) (log line) := fun _ => .modify fun _ _ => ⟨⟩
  refine Keeps.bind (Keeps.forIn (fun x _ => ?_) r.metadata _) fun _ => hlog last
  exact (hlog (line x)).bind fun _ => .pure _

/-- A fault of the source comes from obtaining the artifact, or from loading it. -/
theorem runWith_cases {e : Error} {rest : List String} (hlocation : settings.location = .file db)
    (hkind : e.IsSourceFault) (h : outcome (runWith programs settings (path :: rest)) w = (.error e, w')) :
    ∃ source, outcome (obtain programs settings path source) w = (.error e, w') ∨
      ∃ a before after, outcome (obtain programs settings path source) w = (.ok a, before) ∧
        outcome (refresh settings) before = (.ok (), after) ∧ outcome (load settings a) after = (.error e, w') := by
  unfold runWith at h
  dsimp only at h
  rw [outcome_bind, outcome_readText] at h
  cases htext : w.directory.text? path with
  | none =>
    rw [htext] at h
    cases h
    cases hkind
  | some source =>
    rw [htext] at h
    refine ⟨source, (outcome_bind_eq_error.1 h).imp_right fun ⟨a, before, hobtain, h⟩ => ?_⟩
    obtain ⟨after, hrefresh, -⟩ := refresh_outcome hlocation
    rw [outcome_bind_ok hrefresh] at h
    rcases outcome_bind_eq_error.1 h with hload | ⟨r, loaded, -, h⟩
    · exact ⟨a, before, after, hobtain, hrefresh, hload⟩
    · have hlogs := logs_keeps r (fun x => "metadata tag=" ++ x.1 ++ " value=" ++ x.2)
        (summaryLine settings.database r) loaded ⟨⟩
      rw [h] at hlogs
      exact hlogs.elim

/-- The directory after a run. -/
theorem directory_run {env : List (String × String)} {d : Directory} {args : List String}
    (h : Settings.read (d.text? settingsPath) env = .ok settings) :
    (run programs env d args).directory =
      (outcome (runWith programs settings args) { directory := d }).2.directory := by
  unfold run
  rw [h]
  dsimp only
  rcases hrun : outcome (runWith programs settings args) { directory := d } with ⟨e | ⟨⟩, after⟩ <;>
    rw [show (runWith programs settings args).run.run { directory := d } = _ from hrun]

/-- A database with one row. -/
def oneRow : Sql.Content where
  tables := [⟨{ name := "T", definition := "CREATE TABLE T (v)", columns := [{ name := "v" }] }, [⟨1, [.integer 5]⟩]⟩]

/-- The tokens of a config with a list of structs that are not declared. -/
def undeclaredTokens : String := "CONFIG[_!]IDENT(C)[_!]COMMAND(p LIST(Missing))[_!]SEMI[_!]EOF"

/-- A directory with settings, a source and its tokens. -/
def undeclared (settings : String) : Directory :=
  [("canfig.json", .text settings), ("s.canfig", .text ""), ("s.cando", .text undeclaredTokens)]

/-- The only program is a lexer that writes nothing. -/
def silentLexer : Programs := fun program => if program = "true" then some 0 else none

/-- A run in a directory ends with a fault of the declarations. -/
def RejectedIn (d : Directory) : Prop :=
  ∃ settings fault, Settings.read (d.text? settingsPath) [] = .ok settings ∧
    (outcome (runWith silentLexer settings ["s.canfig"]) { directory := d }).1 = .error (.compile fault)

theorem rejectedIn_of_run {d : Directory}
    (h : (match Settings.read (d.text? settingsPath) [] with
      | .ok settings =>
        match (outcome (runWith silentLexer settings ["s.canfig"]) { directory := d }).1 with
        | .error (.compile _) => true
        | _ => false
      | .error _ => false) = true) : RejectedIn d := by
  split at h
  · rename_i settings hsettings
    split at h
    · rename_i fault hfault
      exact ⟨settings, fault, hsettings, hfault⟩
    · cases h
  · cases h

/-- The number of tables of a database. -/
def tableCount? (d : Directory) (path : String) : Option Nat :=
  match d.content? path with
  | some (.database c) => some c.tables.length
  | _ => none

/-- A database beside a source that does not compile. -/
def keptDirectory : Directory :=
  (undeclared "\x7b\"database\":\"d.db\"\x7d").write "d.db" (.database oneRow)

end CommandLine

end GuardedConfig
