import SchemaMigration.Proofs.Model.Directory
/-!
Which bad models are errors of the definitions, and which failures go past them: a path that is too long, a file
that is not UTF-8, an integer that is too long to be read, and, where models are given as a value, a definition
that does not list entries.
-/
namespace SchemaMigration

def Failure.isDefinition : Failure → Bool
  | .definition _ => true
  | _ => false

/-- A file that cannot be read as JSON, with a failure that is no error of the definitions. -/
inductive ReadStops (t : Tree) (p : FilePath) : Failure → Prop
  | unusableName (found : t.read p = .error .unusableName) : ReadStops t p (.file .unusableName)
  | notUtf8 {content : ByteArray} (found : t.read p = .ok content) (broken : String.fromUTF8? content = none) :
      ReadStops t p .notUtf8
  | integerTooLong {content : ByteArray} {text : String} (found : t.read p = .ok content)
      (decoded : String.fromUTF8? content = some text) (long : Json.read text = .error .integerTooLong) :
      ReadStops t p (.fault .integerTooLong)

namespace ModelDirectory

def filesIn (t : Tree) (directory : FilePath) : List FilePath :=
  (((t.names directory).toOption.getD []).filter isModelFile).map directory.child

/-- Models that cannot be loaded, with a failure that is no error of the definitions: the path of the directory is too
long, or all files load before one that cannot be read. -/
inductive LoadStops (site : Site) (directory : FilePath) : Failure → Prop
  | nameTooLong (asked : site.tree.isDirectory? directory = .error .nameTooLong) :
      LoadStops site directory (.file .nameTooLong)
  | unread {before after : List FilePath} {p : FilePath} {models : ModelSet} {e : Failure}
      (there : site.tree.isDirectory? directory = .ok true)
      (files : filesIn site.tree directory = before ++ p :: after)
      (loaded : (loadFiles [] before site).1 = .ok models) (stops : ReadStops site.tree p e) :
      LoadStops site directory e

theorem isDefinition_of_readModel {p : FilePath} {v : Value} {e : Failure} (failed : readModel p v = .error e) :
    e.isDefinition := by
  unfold readModel at failed
  split at failed
  · dsimp only at failed
    split at failed
    · cases failed
    · cases failed
      rfl
  · cases failed
    rfl

section
variable {p : FilePath} {site : Site}

theorem readJson_of_error {fault : FileFault} (found : site.tree.read p = .error fault) :
    Site.readJson p site = (.error (.file fault), site) :=
  Work.bind_of_error (Work.bind_of_error (by
    change Site.ask (·.read p) site = _
    rw [Site.ask, found]))

theorem readJson_of_broken {content : ByteArray} (found : site.tree.read p = .ok content)
    (broken : String.fromUTF8? content = none) : Site.readJson p site = (.error .notUtf8, site) := by
  refine Work.bind_of_error ((Work.bind_of_ok (Site.ask_eq_ok _ found)).trans ?_)
  rw [broken]
  rfl

theorem readJson_of_text {content : ByteArray} {text : String} (found : site.tree.read p = .ok content)
    (decoded : String.fromUTF8? content = some text) :
    Site.readJson p site =
      (match Json.read text with
        | .ok v => .ok v
        | .error .malformed => .error .malformedJson
        | .error .integerTooLong => .error (.fault .integerTooLong), site) := by
  have read : Site.readText p site = (.ok text, site) := by
    refine (Work.bind_of_ok (Site.ask_eq_ok _ found)).trans ?_
    rw [decoded]
    rfl
  refine (Work.bind_of_ok read).trans ?_
  cases Json.read text with
  | ok v => rfl
  | error refusal => cases refusal <;> rfl

theorem loadFile_eq (p : FilePath) (site : Site) :
    loadFile p site =
      (match (Site.readJson p site).1 with
        | .ok v => readModel p v
        | .error e => .error (readFailure p e), site) := by
  have read := Site.onlyLooks_readJson p site
  cases done : Site.readJson p site with
  | mk result later =>
      rw [done] at read
      rcases read with rfl
      refine (Work.bind_of_ok (Work.attempt_eq_ok_iff.mpr done)).trans ?_
      cases result with
      | ok v =>
          change Work.ofExcept (readModel p v) later = (readModel p v, later)
          cases readModel p v <;> rfl
      | error e => rfl

theorem loadFile_of_stops {e : Failure} (stops : ReadStops site.tree p e) : loadFile p site = (.error e, site) := by
  rw [loadFile_eq]
  cases stops with
  | unusableName found =>
      rw [readJson_of_error found]
      rfl
  | notUtf8 found broken =>
      rw [readJson_of_broken found broken]
      rfl
  | integerTooLong found decoded long =>
      rw [readJson_of_text found decoded, long]
      rfl

/-- A file that cannot be loaded is an error of the definitions, or it cannot be read as JSON at all. -/
theorem stops_of_loadFile {e : Failure} (other : e.isDefinition = false) (failed : (loadFile p site).1 = .error e) :
    ReadStops site.tree p e := by
  have reported : ∀ {f : Failure}, f.isDefinition → f ≠ e := by
    rintro f definition rfl
    rw [definition] at other
    cases other
  rw [loadFile_eq] at failed
  cases found : site.tree.read p with
  | error fault =>
      rw [readJson_of_error found] at failed
      cases fault with
      | unusableName =>
          cases failed
          exact .unusableName found
      | _ => exact absurd (Except.error.inj failed) (reported rfl)
  | ok content =>
      cases decoded : String.fromUTF8? content with
      | none =>
          rw [readJson_of_broken found decoded] at failed
          cases failed
          exact .notUtf8 found decoded
      | some text =>
          rw [readJson_of_text found decoded] at failed
          cases read : Json.read text with
          | ok v =>
              rw [read] at failed
              exact absurd rfl (reported (isDefinition_of_readModel failed))
          | error refusal =>
              rw [read] at failed
              cases refusal with
              | malformed => exact absurd (Except.error.inj failed) (reported rfl)
              | integerTooLong =>
                  cases failed
                  exact .integerTooLong found decoded read

theorem loadFiles_cons_eq (models : ModelSet) (p : FilePath) (rest : List FilePath) (site : Site) :
    (loadFiles models (p :: rest) site).1 =
      match (loadFile p site).1 with
      | .error e => .error e
      | .ok model =>
        if (models.lookup model.name).isSome then .error (.definition (.declaredTwice model.name))
        else (loadFiles (models ++ [(model.name, model)]) rest site).1 := by
  have looks := onlyLooks_loadFile p site
  cases loaded : loadFile p site with
  | mk result later =>
      rw [loaded] at looks
      rcases looks with rfl
      rw [loadFiles]
      cases result with
      | error e => rw [Work.bind_of_error loaded]
      | ok model =>
          rw [Work.bind_of_ok loaded]
          dsimp only
          split <;> rfl

theorem loadFiles_eq_error_iff {e : Failure} (other : e.isDefinition = false) (models : ModelSet)
    (paths : List FilePath) :
    (loadFiles models paths site).1 = .error e ↔ ∃ before p after found, paths = before ++ p :: after ∧
      (loadFiles models before site).1 = .ok found ∧ ReadStops site.tree p e := by
  induction paths generalizing models with
  | nil => simp [loadFiles, Pure.pure, Work.pure]
  | cons p rest ih =>
      constructor
      · intro failed
        rw [loadFiles_cons_eq] at failed
        cases loaded : (loadFile p site).1 with
        | error f =>
            rw [loaded] at failed
            cases failed
            exact ⟨[], p, rest, models, rfl, rfl, stops_of_loadFile other loaded⟩
        | ok model =>
            rw [loaded] at failed
            dsimp only at failed
            split at failed
            · cases failed
              cases other
            · rename_i once
              rcases (ih _).mp failed with ⟨before, q, after, found, rfl, loads, stops⟩
              refine ⟨p :: before, q, after, found, rfl, ?_, stops⟩
              rw [loadFiles_cons_eq, loaded]
              exact (if_neg once).trans loads
      · intro given
        rcases given with ⟨before, q, after, found, whole, loads, stops⟩
        rw [loadFiles_cons_eq]
        cases before with
        | nil =>
            cases whole
            rw [loadFile_of_stops stops]
        | cons first others =>
            cases whole
            rw [loadFiles_cons_eq] at loads
            cases loaded : (loadFile p site).1 with
            | error f =>
                rw [loaded] at loads
                cases loads
            | ok model =>
                rw [loaded] at loads
                dsimp only at loads ⊢
                split at loads
                · cases loads
                · rename_i once
                  rw [if_neg once]
                  exact (ih _).mpr ⟨others, q, after, found, rfl, loads, stops⟩

end

theorem eq_nameTooLong_of_isDirectory? {t : Tree} {p : FilePath} {fault : FileFault}
    (failed : t.isDirectory? p = .error fault) : fault = .nameTooLong := by
  unfold Tree.isDirectory? at failed
  split at failed
  · cases failed
  · cases failed
  · cases failed
    rfl
  · cases failed

theorem exists_names_of_isDirectory? {t : Tree} {p : FilePath} (there : t.isDirectory? p = .ok true) :
    ∃ names, t.names p = .ok names := by
  unfold Tree.names
  rw [there]
  unfold Tree.isDirectory? Tree.find at there
  cases located : t.locate p with
  | ok place => exact ⟨_, rfl⟩
  | error fault =>
      rw [located] at there
      cases fault <;> cases there

theorem load_of_isDirectory? {directory : FilePath} {site : Site} (there : site.tree.isDirectory? directory = .ok true) :
    load directory site = loadFiles [] (filesIn site.tree directory) site := by
  rcases exists_names_of_isDirectory? there with ⟨names, listed⟩
  rw [load, Work.bind_of_ok (Site.ask_eq_ok _ there), if_pos rfl, Work.bind_of_ok (Site.ask_eq_ok _ listed), filesIn,
    listed]
  rfl

theorem load_eq_ok_iff (directory : FilePath) (site : Site) (loaded : ModelSet) :
    (load directory site).1 = .ok loaded ↔ site.tree.isDirectory? directory = .ok true ∧
      (loadFiles [] (filesIn site.tree directory) site).1 = .ok loaded := by
  cases asked : site.tree.isDirectory? directory with
  | error fault =>
      rw [load, Work.bind_of_error (by rw [Site.ask, asked])]
      constructor
      · intro done
        cases done
      · intro given
        cases given.1
  | ok there =>
      cases there with
      | false =>
          rw [load, Work.bind_of_ok (Site.ask_eq_ok _ asked)]
          constructor
          · intro done
            cases done
          · intro given
            cases given.1
      | true => rw [load_of_isDirectory? asked, and_iff_right rfl]

theorem load_eq_error_iff (directory : FilePath) (site : Site) {e : Failure} (other : e.isDefinition = false) :
    (load directory site).1 = .error e ↔ LoadStops site directory e := by
  constructor
  · intro failed
    cases asked : site.tree.isDirectory? directory with
    | error fault =>
        rcases eq_nameTooLong_of_isDirectory? asked with rfl
        have stopped : load directory site = (.error (.file .nameTooLong), site) :=
          Work.bind_of_error (by rw [Site.ask, asked])
        rw [stopped] at failed
        cases failed
        exact .nameTooLong asked
    | ok there =>
        cases there with
        | false =>
            have missing : load directory site = (.error (.definition (.noDirectory directory)), site) := by
              rw [load, Work.bind_of_ok (Site.ask_eq_ok _ asked)]
              rfl
            rw [missing] at failed
            cases failed
            cases other
        | true =>
            rw [load_of_isDirectory? asked, loadFiles_eq_error_iff other] at failed
            rcases failed with ⟨before, p, after, found, files, loads, stops⟩
            exact .unread asked files loads stops
  · intro stops
    cases stops with
    | nameTooLong asked => rw [load, Work.bind_of_error (by rw [Site.ask, asked])]
    | unread there files loaded stops =>
        rw [load_of_isDirectory? there, loadFiles_eq_error_iff other]
        exact ⟨_, _, _, _, files, loaded, stops⟩

end ModelDirectory

/-- A value with two members, the first of which can serve as a key. -/
def Value.IsPair (v : Value) : Prop := ∃ key w, v.members? = some [key, w] ∧ key.hashable

/-- A dictionary, or a value whose members are pairs. -/
def Value.ListsEntries (v : Value) : Prop :=
  (∃ entries, v = .dict entries) ∨ ∃ pairs, v.members? = some pairs ∧ ∀ pair ∈ pairs, pair.IsPair

namespace ModelSet

def Refusal.isInvalid : Refusal → Bool
  | .invalid .. => true
  | _ => false

theorem exists_putPair_eq_ok_iff (entries : List (String × Value)) (pair : Value) :
    (∃ result, putPair entries pair = .ok result) ↔ pair.IsPair := by
  unfold putPair Value.IsPair
  split
  case h_1 unlisted => simp [unlisted]
  case h_2 key w two =>
    rw [two]
    split
    · simp [Value.hashable]
    · cases hashable : key.hashable <;> simp [hashable]
  case h_3 items odd listed =>
    rw [listed]
    refine iff_of_false nofun ?_
    rintro ⟨key, w, two, -⟩
    exact odd key w (Option.some.inj two)

theorem exists_putPairs_eq_ok_iff (entries : List (String × Value)) (pairs : List Value) :
    (∃ result, putPairs entries pairs = .ok result) ↔ ∀ pair ∈ pairs, pair.IsPair := by
  induction pairs generalizing entries with
  | nil => simp [putPairs]
  | cons pair rest ih =>
      rw [List.forall_mem_cons, ← exists_putPair_eq_ok_iff entries pair, putPairs]
      cases first : putPair entries pair with
      | error refusal => simp [bind, Except.bind]
      | ok next => simpa [bind, Except.bind] using ih next

theorem exists_definitionEntries_eq_ok_iff (v : Value) :
    (∃ entries, definitionEntries v = .ok entries) ↔ v.ListsEntries := by
  unfold definitionEntries Value.ListsEntries
  split
  · simp
  · rename_i other
    have noDictionary : ¬ ∃ entries, v = .dict entries := fun given => other given.choose given.choose_spec
    split
    case h_1 unlisted => simp [unlisted, noDictionary]
    case h_2 pairs listed => simp [listed, noDictionary, exists_putPairs_eq_ok_iff]

theorem isInvalid_of_putPair {entries : List (String × Value)} {pair : Value} {refusal : Refusal}
    (failed : putPair entries pair = .error refusal) : refusal.isInvalid = false := by
  unfold putPair at failed
  split at failed
  · cases failed
    rfl
  · split at failed
    · cases failed
    · split at failed
      · cases failed
      · cases failed
        rfl
  · cases failed
    rfl

theorem isInvalid_of_putPairs {entries : List (String × Value)} {pairs : List Value} {refusal : Refusal}
    (failed : putPairs entries pairs = .error refusal) : refusal.isInvalid = false := by
  induction pairs generalizing entries with
  | nil => cases failed
  | cons pair rest ih =>
      rw [putPairs] at failed
      cases first : putPair entries pair with
      | error other =>
          rw [first] at failed
          cases failed
          exact isInvalid_of_putPair first
      | ok next =>
          rw [first] at failed
          exact ih failed

theorem isInvalid_of_definitionEntries {v : Value} {refusal : Refusal}
    (failed : definitionEntries v = .error refusal) : refusal.isInvalid = false := by
  unfold definitionEntries at failed
  split at failed
  · cases failed
  · split at failed
    · cases failed
      rfl
    · exact isInvalid_of_putPairs failed

/-- A definition whose entries are not listed is refused for that, and any other only for what is wrong with it. -/
theorem refused_readEntry_iff (key : String) (definition : Value) :
    (∃ refusal, readEntry key definition = .error refusal ∧ refusal.isInvalid = false) ↔ ¬ definition.ListsEntries := by
  rw [← exists_definitionEntries_eq_ok_iff, readEntry]
  cases listed : definitionEntries definition with
  | error refusal => simpa [bind, Except.bind] using isInvalid_of_definitionEntries listed
  | ok entries =>
      simp only [bind, Except.bind]
      cases Model.check (.dict (withName key entries)) <;> simp [Refusal.isInvalid, pure, Except.pure]

theorem refused_readEntries_iff (entries : List (String × Value)) :
    (∃ refusal, readEntries entries = .error refusal ∧ refusal.isInvalid = false) ↔
      ∃ before key definition after models, entries = before ++ (key, definition) :: after ∧
        readEntries before = .ok models ∧ ¬ definition.ListsEntries := by
  induction entries with
  | nil => simp [readEntries]
  | cons entry rest ih =>
      rcases entry with ⟨key, definition⟩
      have here := refused_readEntry_iff key definition
      constructor
      · intro given
        rcases given with ⟨refusal, failed, other⟩
        cases first : readEntry key definition with
        | error same =>
            rw [readEntries, first] at failed
            cases failed
            exact ⟨[], key, definition, rest, [], rfl, rfl, here.mp ⟨_, first, other⟩⟩
        | ok model =>
            cases later : readEntries rest with
            | error same =>
                rw [readEntries, first, later] at failed
                cases failed
                rcases ih.mp ⟨_, later, other⟩ with ⟨before, k, v, after, models, rfl, reads, unlisted⟩
                refine ⟨(key, definition) :: before, k, v, after, (key, model) :: models, rfl, ?_, unlisted⟩
                rw [readEntries, first, reads]
                rfl
            | ok models =>
                rw [readEntries, first, later] at failed
                cases failed
      · intro given
        rcases given with ⟨before, k, v, after, models, whole, reads, unlisted⟩
        cases before with
        | nil =>
            cases whole
            rcases here.mpr unlisted with ⟨refusal, first, other⟩
            refine ⟨refusal, ?_, other⟩
            rw [readEntries, first]
            rfl
        | cons entry others =>
            cases whole
            rw [readEntries] at reads
            rcases bind_eq_ok reads with ⟨model, first, reads⟩
            rcases bind_eq_ok reads with ⟨found, later, -⟩
            rcases ih.mpr ⟨others, k, v, after, found, rfl, later, unlisted⟩ with ⟨refusal, failed, other⟩
            refine ⟨refusal, ?_, other⟩
            rw [readEntries, first, failed]
            rfl

theorem read_eq_ok_iff {entries : List (String × Value)} {models : ModelSet} :
    ModelSet.read (.dict entries) = .ok models ↔ readEntries entries = .ok models := by
  rw [ModelSet.read, ofValue]
  cases readEntries entries with
  | ok found => simp
  | error refusal => cases refusal <;> simp

theorem read_eq_error_iff (entries : List (String × Value)) :
    (∃ e, ModelSet.read (.dict entries) = .error e ∧ e.isDefinition = false) ↔
      ∃ before key definition after models, entries = before ++ (key, definition) :: after ∧
        ModelSet.read (.dict before) = .ok models ∧ ¬ definition.ListsEntries := by
  have refused : (∃ e, ModelSet.read (.dict entries) = .error e ∧ e.isDefinition = false) ↔
      ∃ refusal, readEntries entries = .error refusal ∧ refusal.isInvalid = false := by
    rw [ModelSet.read, ofValue]
    cases readEntries entries with
    | ok found => simp
    | error refusal => cases refusal <;> simp [Failure.isDefinition, Refusal.isInvalid]
  rw [refused, refused_readEntries_iff]
  simp only [read_eq_ok_iff]

end ModelSet
end SchemaMigration
