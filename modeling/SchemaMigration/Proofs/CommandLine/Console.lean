import SchemaMigration.CommandLine.Run
import SchemaMigration.Proofs.Migration.Told
import SchemaMigration.Proofs.Model.Directory
import SchemaMigration.Proofs.Snapshot.Store
import SchemaMigration.Proofs.Snapshot.Unreadable

namespace SchemaMigration.CommandLine

/-- The change that a message says was left out. -/
def Message.leftOut? : Message → Option SkippedChange
  | .leftOut change _ => some change
  | _ => none

def Message.skipped? : Message → Option String
  | .notice n => n.skipped?
  | _ => none

namespace Console
variable {α : Type} {before after : Console}

def leftOut (c : Console) : List SkippedChange := c.messages.filterMap Message.leftOut?

def skips (c : Console) : List String := c.messages.filterMap Message.skipped?

/-- Notices were told, of changes that were skipped just these, and nothing else has changed. -/
structure Noted (skipped : List String) (before after : Console) : Prop where
  tree : after.tree = before.tree
  shown : after.shown = before.shown
  leftOut : after.leftOut = before.leftOut
  skips : after.skips = before.skips ++ skipped

theorem onSite_eq {x : Work Site α} {result : Except Failure α} {site : Site} {c : Console}
    (done : x ⟨c.tree, []⟩ = (result, site)) :
    onSite x c = (result, { c with tree := site.tree, messages := c.messages ++ site.told.map .notice }) := by
  rw [onSite, Work.inside, done]

theorem onSite_eq_ok_iff {x : Work Site α} {a : α} :
    onSite x before = (.ok a, after) ↔ ∃ site, x ⟨before.tree, []⟩ = (.ok a, site) ∧
      after = { before with tree := site.tree, messages := before.messages ++ site.told.map .notice } := by
  change ((x ⟨before.tree, []⟩).1, _) = (.ok a, after) ↔ _
  rw [Prod.mk.injEq]
  constructor
  · intro done
    exact ⟨_, Prod.ext done.1 rfl, done.2.symm⟩
  · intro done
    rcases done with ⟨site, done, rfl⟩
    rw [done]
    exact ⟨rfl, rfl⟩

theorem leftOut_told (c : Console) (told : List Notice) :
    (c.messages ++ told.map Message.notice).filterMap Message.leftOut? = c.leftOut := by
  have unrelated : told.filterMap (Message.leftOut? ∘ Message.notice) = [] := by simp [Message.leftOut?]
  rw [List.filterMap_append, List.filterMap_map, unrelated, List.append_nil, leftOut]

theorem leftOut_said (c : Console) (d : Dialect) (changes : List SkippedChange) :
    (c.messages ++ changes.map fun change => Message.leftOut change (change.statement.text d)).filterMap Message.leftOut? =
      c.leftOut ++ changes := by
  have said : changes.filterMap (Message.leftOut? ∘ fun change => .leftOut change (change.statement.text d)) = changes := by
    simp [Function.comp_def, Message.leftOut?]
  rw [List.filterMap_append, List.filterMap_map, said, leftOut]

theorem skips_told (c : Console) (told : List Notice) :
    (c.messages ++ told.map Message.notice).filterMap Message.skipped? = c.skips ++ told.filterMap Notice.skipped? := by
  rw [List.filterMap_append, List.filterMap_map, skips]
  rfl

theorem noted_onSite {x : Work Site α} {a : α} {site : Site} (done : x ⟨before.tree, []⟩ = (.ok a, site))
    (tree : site.tree = before.tree) (passed : onSite x before = (.ok a, after)) :
    Noted (site.told.filterMap Notice.skipped?) before after := by
  rcases onSite_eq_ok_iff.mp passed with ⟨other, same, rfl⟩
  rw [done] at same
  cases same
  exact ⟨tree, rfl, leftOut_told before site.told, skips_told before site.told⟩

theorem report_eq_ok {r : Reported α} {a : α} (done : onSite (Site.report r) before = (.ok a, after)) :
    r.outcome = .ok a ∧ Noted r.skips before after := by
  rcases onSite_eq_ok_iff.mp done with ⟨site, reported, -⟩
  have noted := noted_onSite reported (by rw [← (Prod.mk.inj reported).2]) done
  rcases Prod.mk.inj reported with ⟨result, rfl⟩
  cases made : r.outcome with
  | error fault =>
      rw [made] at result
      cases result
  | ok b =>
      rw [made] at result
      cases result
      exact ⟨rfl, noted⟩

theorem printAll_eq (lines : List String) (c : Console) :
    printAll lines c = (.ok (), { c with shown := c.shown ++ lines.map Text.withoutControls }) := by
  have all := Work.each_of_ok (f := print) (fun line c => rfl) lines c
  have shown : lines.foldl (fun c line => { c with shown := c.shown ++ [Text.withoutControls line] }) c =
      { c with shown := c.shown ++ lines.map Text.withoutControls } := by
    clear all
    induction lines generalizing c with
    | nil => simp
    | cons line rest ih => simp [ih]
  rw [shown] at all
  exact Work.bind_eq_ok_iff.mpr ⟨_, _, all, rfl⟩

theorem each_sayLeftOut_eq (d : Dialect) (changes : List SkippedChange) (c : Console) :
    ∃ results, Work.each (sayLeftOut d) changes c = (.ok results, { c with
      messages := c.messages ++ changes.map fun change => .leftOut change (change.statement.text d) }) := by
  have all := Work.each_of_ok (f := sayLeftOut d) (fun change c => rfl) changes c
  have said : changes.foldl (fun c change => { c with
        messages := c.messages ++ [.leftOut change (change.statement.text d)] }) c =
      { c with messages := c.messages ++ changes.map fun change => .leftOut change (change.statement.text d) } := by
    clear all
    induction changes generalizing c with
    | nil => simp
    | cons change rest ih => simp [ih]
  rw [said] at all
  exact ⟨_, all⟩

end Console

open Console
variable {settings : Settings} {before after : Console}

theorem onlyLooks_loadPlan [Device] (settings : Settings) : (loadPlan settings).OnlyLooks := by
  apply (ModelDirectory.onlyLooks_load settings.modelsDir).bind
  intro models
  split
  · exact .fail _
  · exact .ofExcept _

def planIn [Device] (settings : Settings) (t : Tree) : Except Failure Plan := (loadPlan settings ⟨t, []⟩).1

theorem loadPlan_eq [Device] (settings : Settings) (t : Tree) : loadPlan settings ⟨t, []⟩ = (planIn settings t, ⟨t, []⟩) :=
  Prod.ext rfl (onlyLooks_loadPlan settings ⟨t, []⟩)

theorem attempt_loadPlan_eq [Device] (settings : Settings) (c : Console) :
    Work.attempt (onSite (loadPlan settings)) c = (.ok (planIn settings c.tree), c) := by
  have loaded := onSite_eq (loadPlan_eq settings c.tree)
  rw [List.map_nil, List.append_nil] at loaded
  rw [Work.attempt, loaded]

/-- A command goes on with the plan of the models; otherwise it reports an error or is stopped. -/
theorem withPlan_eq [Device] (settings : Settings) (next : Plan → Work Console Nat) (c : Console) :
    withPlan settings next c =
      match planIn settings c.tree with
      | .ok plan => next plan c
      | .error e => if e.isReported then (.ok 1, { c with messages := c.messages ++ [.error e] }) else (.error e, c) := by
  rw [withPlan, Work.bind_of_ok (attempt_loadPlan_eq settings c)]
  cases planIn settings c.tree with
  | ok plan => rfl
  | error e => cases reported : e.isReported <;> simp [reported] <;> rfl

def Hushed (before after : Site) : Prop := after.told.filterMap Notice.skipped? = before.told.filterMap Notice.skipped?

theorem hushed_bind {α β : Type} {x : Work Site α} {f : α → Work Site β} (first : x.Keeps Hushed)
    (second : ∀ a, (f a).Keeps Hushed) : (x >>= f).Keeps Hushed :=
  Work.Keeps.bind (fun early late => late.trans early) first second

theorem hushed_of_onlyLooks {α : Type} {x : Work Site α} (looks : x.OnlyLooks) : x.Keeps Hushed := by
  intro site
  rw [looks site]
  rfl

theorem hushed_tell {n : Notice} (nothing : n.skipped? = none) : (Site.tell n).Keeps Hushed :=
  fun site => by simp [Hushed, Site.tell, Work.change, nothing]

theorem hushed_alter (f : Tree → Except FileFault Tree) : (Site.alter f).Keeps Hushed := by
  intro site
  unfold Site.alter
  cases f site.tree <;> rfl

theorem hushed_save (path : FilePath) (plan : Plan) (now : DateTime) : (Snapshot.save path plan now).Keeps Hushed := by
  have directories : (Site.ensureDirectories path.parent).Keeps Hushed := by
    intro site
    unfold Site.ensureDirectories
    split <;> rfl
  have taken : (Work.ofFaults plan.fingerprint : Work Site String).Keeps Hushed := by
    intro site
    cases plan.fingerprint <;> rfl
  apply hushed_bind taken
  intro digest
  apply hushed_bind directories
  intro _
  apply hushed_bind ?_ fun _ => hushed_bind (hushed_tell rfl) fun _ => hushed_of_onlyLooks (.pure _)
  unfold Snapshot.replaceFile
  split
  · exact hushed_of_onlyLooks (.fail _)
  · exact hushed_bind (hushed_alter _) fun _ => hushed_alter _

theorem keeps_load [Device] {related : Site → Site → Prop} {path : FilePath} (refl : ∀ s, related s s)
    (trans : ∀ {a b c}, related a b → related b c → related a c)
    (told : ∀ cause, (Site.tell (.snapshotIgnored path cause)).Keeps related) : (Snapshot.load path).Keeps related := by
  have looks : ∀ {α : Type} {x : Work Site α}, x.OnlyLooks → x.Keeps related := by
    intro α x looks site
    rw [looks site]
    exact refl site
  have binds : ∀ {α β : Type} {x : Work Site α} {f : α → Work Site β}, x.Keeps related →
      (∀ a, (f a).Keeps related) → (x >>= f).Keeps related := by
    intro α β x f first second
    exact @Work.Keeps.bind _ _ _ related trans x f first second
  apply binds (looks (Site.onlyLooks_ask _))
  intro there
  split
  · apply binds (looks (Snapshot.onlyLooks_readFile path).attempt)
    intro result
    split
    · exact looks (.pure _)
    · split
      · exact binds (told _) fun _ => looks (.pure none)
      · exact looks (.fail _)
  · exact looks (.pure _)

theorem hushed_load (path : FilePath) : (Snapshot.load path).Keeps Hushed :=
  keeps_load (fun _ => rfl) (fun early late => late.trans early) fun _ => hushed_tell rfl

theorem sameTree_load [Device] (path : FilePath) : (Snapshot.load path).Keeps fun before after => after.tree = before.tree :=
  keeps_load (fun _ => rfl) (fun early late => late.trans early) fun _ _ => rfl

def storedIn (settings : Settings) (t : Tree) : Option Snapshot :=
  (Snapshot.load settings.snapshotPath ⟨t, []⟩).1.toOption.join

theorem load_eq_ok {snapshot : Option Snapshot}
    (done : onSite (Snapshot.load settings.snapshotPath) before = (.ok snapshot, after)) :
    snapshot = storedIn settings before.tree ∧ Noted [] before after := by
  rcases onSite_eq_ok_iff.mp done with ⟨site, loaded, -⟩
  have tree := sameTree_load settings.snapshotPath ⟨before.tree, []⟩
  have hushed := hushed_load settings.snapshotPath ⟨before.tree, []⟩
  rw [loaded] at tree hushed
  have noted := noted_onSite loaded tree done
  rw [show site.told.filterMap Notice.skipped? = [] from hushed] at noted
  refine ⟨?_, noted⟩
  rw [storedIn, loaded]
  rfl

/-- The plan that a migration starts from. -/
def formerIn (settings : Settings) (full : Bool) (t : Tree) : Option Plan :=
  if full then none else (storedIn settings t).map (·.plan)

theorem Console.Noted.refl (c : Console) : Noted [] c c := ⟨rfl, rfl, rfl, (List.append_nil _).symm⟩

theorem previousPlan_eq_ok {full : Bool} {previous : Option Plan}
    (done : previousPlan settings full before = (.ok previous, after)) :
    previous = formerIn settings full before.tree ∧ Noted [] before after := by
  cases full with
  | true =>
      cases done
      exact ⟨rfl, .refl before⟩
  | false =>
      rcases Work.bind_eq_ok_iff.mp done with ⟨snapshot, middle, loaded, ⟨⟩⟩
      rcases load_eq_ok loaded with ⟨rfl, noted⟩
      exact ⟨rfl, noted⟩

def savedLine (settings : Settings) (digest : String) : String :=
  "Saved snapshot: " ++ settings.snapshotPath.text ++ " (" ++ Fingerprint.short digest ++ ")"

/-- One line is shown, and files stay as they are but for those that the snapshot is put in. -/
theorem saveSnapshot_eq_ok {now : Int} {plan : Plan} (done : saveSnapshot settings now plan before = (.ok (), after)) :
    (∃ digest, plan.fingerprint = .ok digest ∧
        after.shown = before.shown ++ [Text.withoutControls (savedLine settings digest)]) ∧
      after.leftOut = before.leftOut ∧ after.skips = before.skips ∧
      ∀ p content, Snapshot.Spares after.tree settings.snapshotPath p → before.tree.read p = .ok content →
        after.tree.read p = .ok content := by
  unfold saveSnapshot at done
  cases known : DateTime.ofUnixSeconds now with
  | error fault =>
      rw [known] at done
      cases done
  | ok time =>
      rw [known] at done
      rcases Work.bind_eq_ok_iff.mp done with ⟨saved, middle, passed, ⟨⟩⟩
      rcases onSite_eq_ok_iff.mp passed with ⟨site, stored, rfl⟩
      rcases Snapshot.read_of_save stored with ⟨digest, taken, rfl, -⟩
      have hushed := hushed_save settings.snapshotPath plan time ⟨before.tree, []⟩
      rw [stored] at hushed
      refine ⟨⟨digest, taken, rfl⟩, leftOut_told before site.told, ?_, ?_⟩
      · have unskipped : site.told.filterMap Notice.skipped? = [] := hushed
        rw [← List.append_nil before.skips, ← unskipped]
        exact skips_told before site.told
      · exact fun p content spared held => Snapshot.read_of_save_other stored spared held

end SchemaMigration.CommandLine
