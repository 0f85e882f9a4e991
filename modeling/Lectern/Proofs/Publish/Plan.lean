import Lectern.Proofs.Publish.Delivery
import Lectern.Proofs.Publish.Frame

/-!
# Plans

A run on a deck comes to delivering what is planned for it (`upshot_run`), and a run on several
decks to carrying out one plan after another, as long as the plans stay what they were at the start
(`runAllOn_eq`). A plan hangs on nothing but the deck file (`plan_eq`).
-/

namespace Lectern

namespace Machine

/-- What running a command comes to, but for the notices and the cause of a failure. -/
def upshot {α : Type} (machine : Machine) (command : ExceptT Failure Simulated α) :
    Option α × FileTree :=
  ((machine.run command).1.toOption, (machine.run command).2.tree)

/-- Writing a text delivers it. -/
theorem upshot_writeText (machine : Machine) (parcel : Parcel) (isName : Path.IsName parcel.name)
    {content : Text} (bytes : parcel.bytes = Text.toBytes content) :
    machine.upshot (Host.writeText parcel.path content) =
      match (parcel.room machine.tree).writeFile parcel.path parcel.bytes with
      | .ok after => (some (), after)
      | .error _ => (none, parcel.room machine.tree) := by
  obtain ⟨parent, same, above⟩ := Path.exists_parent_join parcel.folder
  have above : parcel.path.parent? = some parent := above parcel.name isName
  have room : parcel.room machine.tree = machine.tree.withFolder parent := by
    rw [Parcel.room, above]
    rfl
  have command : Host.writeText parcel.path content = (do
      Host.ensureFolder parent
      Host.orFail (.file .write parcel.path)
        (Host.writeBytes parcel.path (Text.toBytes content)) :
      ExceptT Failure Simulated Unit) := by
    rw [Host.writeText, above]
  obtain ⟨made, unmade⟩ := run_ensureFolder machine parent
  rw [upshot, command, room]
  rcases ensured : machine.run (Host.ensureFolder parent) with ⟨failure | done, ready⟩
  · rw [ensured] at made unmade
    obtain ⟨nonempty, noFolder⟩ := unmade failure rfl
    rw [run_bind_of_error ensured, made]
    cases written : (machine.tree.withFolder parent).writeFile parcel.path parcel.bytes with
    | error error => rfl
    | ok after =>
      -- A folder that a file can be written in is there.
      obtain ⟨fits, reaches, -⟩ := (Parcel.writeFile_path_eq_ok_iff isName).mp written
      refine absurd (FileTree.folder_of_parent above nonempty fits.1 ?_) noFolder
      exact reaches.of_same ⟨same.1.symm, same.2.symm⟩
  · rw [ensured] at made
    have answer : (Host.writeBytes parcel.path (Text.toBytes content) : Simulated _) ready =
        ready.update (ready.tree.writeFile parcel.path (Text.toBytes content)) := rfl
    rw [run_bind_of_ok ensured, run_orFail, answer, made, bytes]
    cases (machine.tree.withFolder parent).writeFile parcel.path (Text.toBytes content) with
    | error error => exact Prod.ext rfl made
    | ok after => rfl

end Machine

namespace Publisher

open Machine

/-- What is delivered for an output. -/
def parcel (publisher : Publisher) (deck : Path) (output : Output) : Parcel :=
  ⟨publisher.outputFolder deck, publisher.nameFor deck output.language,
    Text.toBytes output.latex⟩

/-- What is to be delivered for a deck, if it can be rendered. -/
def plan (publisher : Publisher) (tree : FileTree) (deck : Path) : Option (List Parcel) :=
  (publisher.outputsOn tree deck).toOption.map fun outputs => outputs.map (publisher.parcel deck)

/-- Delivering what is planned; without a plan the deck fails. -/
def carryOut (force : Bool) : Option (List Parcel) → Change
  | none => fun tree => (none, tree)
  | some parcels => Change.all (parcels.map (Parcel.deliver force))

/-- Writing outputs delivers them one after another. -/
theorem upshot_writeOutputs (publisher : Publisher) (deck : Path) (force : Bool)
    {outputs : List Output}
    (names : ∀ output ∈ outputs, Path.IsName (publisher.nameFor deck output.language))
    (machine : Machine) :
    machine.upshot (publisher.writeOutputs deck force outputs) =
      Change.all (outputs.map fun output => (publisher.parcel deck output).deliver force)
        machine.tree := by
  induction outputs generalizing machine with
  | nil => rfl
  | cons output rest ih =>
    have ih := ih fun other member => names other (List.mem_cons_of_mem _ member)
    have path : publisher.outputPath deck output.language = (publisher.parcel deck output).path :=
      rfl
    have wrote := upshot_writeText machine (publisher.parcel deck output)
      (names output (List.mem_cons_self ..)) rfl
    rw [upshot, writeOutputs, path, run_bind_of_ok (run_exists? machine _), List.map_cons]
    generalize publisher.parcel deck output = parcel at wrote ⊢
    by_cases skips : force = false ∧ (kindOn machine.tree parcel.path).isSome
    · have kept : parcel.deliver force machine.tree = (some [], machine.tree) := if_pos skips
      rw [if_pos (by simpa using skips), run_bind_of_ok (run_notify machine _), ← upshot, ih,
        tree_tell, Change.all_of_made (congrArg Prod.fst kept), kept]
      simp
    · have delivered : parcel.deliver force machine.tree = _ := if_neg skips
      rw [if_neg (by simpa using skips)]
      rcases ran : machine.run (Host.writeText parcel.path output.latex) with
        ⟨failure | done, ready⟩
      · have failed : parcel.deliver force machine.tree = (none, ready.tree) := by
          rw [upshot, ran] at wrote
          rw [delivered]
          cases written : (parcel.room machine.tree).writeFile parcel.path parcel.bytes with
          | ok after =>
            rw [written] at wrote
            cases (Prod.mk.inj wrote).1
          | error error =>
            rw [written] at wrote
            exact Prod.ext rfl (Prod.mk.inj wrote).2.symm
        rw [run_bind_of_error ran, Change.all_of_failed (congrArg Prod.fst failed), failed]
        rfl
      · have succeeded : parcel.deliver force machine.tree = (some [parcel.path], ready.tree) := by
          rw [upshot, ran] at wrote
          rw [delivered]
          cases written : (parcel.room machine.tree).writeFile parcel.path parcel.bytes with
          | ok after =>
            rw [written] at wrote
            rw [(Prod.mk.inj wrote).2]
          | error error =>
            rw [written] at wrote
            cases (Prod.mk.inj wrote).1
        have others := ih (ready.tell (.written parcel.path
          (output.language.bind fun code => (Language.englishName code).toOption)))
        rw [tree_tell, upshot] at others
        rw [run_bind_of_ok ran, run_bind_of_ok (run_notify ready _), run_bind,
          Change.all_of_made (congrArg Prod.fst succeeded), succeeded, ← others]
        rcases (ready.tell _).run (publisher.writeOutputs deck force rest) with
          ⟨failure | paths, last⟩ <;> rfl

/-- A run on a deck delivers what is planned for it. -/
theorem upshot_run (publisher : Publisher) (deck : Path) (force : Bool) (machine : Machine)
    (names : ∀ parcels, publisher.plan machine.tree deck = some parcels →
      ∀ parcel ∈ parcels, Path.IsName parcel.name) :
    machine.upshot (publisher.run deck force) =
      carryOut force (publisher.plan machine.tree deck) machine.tree := by
  obtain ⟨told, sameTree, ran⟩ := run_eq publisher machine deck force
  rw [upshot, ran, plan]
  rw [plan] at names
  cases planned : publisher.outputsOn machine.tree deck with
  | error failure => exact Prod.ext rfl sameTree
  | ok outputs =>
    rw [planned] at names
    have delivers := upshot_writeOutputs publisher deck force
      (fun output member => names _ rfl _ (List.mem_map_of_mem member)) told
    rw [sameTree] at delivers
    rw [← upshot, delivers]
    simp [carryOut, Except.toOption, Function.comp_def]

/-! ## What is planned -/

/-- Whether an output is one of a deck on a tree. -/
def HasOutput (publisher : Publisher) (tree : FileTree) (deck : Path) (output : Output) : Prop :=
  ∃ outputs, publisher.outputsOn tree deck = .ok outputs ∧ output ∈ outputs

instance (publisher : Publisher) (tree : FileTree) (deck : Path) (output : Output) :
    Decidable (publisher.HasOutput tree deck output) :=
  match planned : publisher.outputsOn tree deck with
  | .ok outputs => decidable_of_iff (output ∈ outputs) (by simp [HasOutput, planned])
  | .error failure => .isFalse fun ⟨_, other, _⟩ => nomatch planned.symm.trans other

theorem mem_plan {publisher : Publisher} {tree : FileTree} {deck : Path} {parcel : Parcel} :
    parcel ∈ (publisher.plan tree deck).getD [] ↔
      ∃ output, publisher.HasOutput tree deck output ∧ publisher.parcel deck output = parcel := by
  rw [plan]
  simp only [HasOutput]
  cases publisher.outputsOn tree deck with
  | error failure => simp [Except.toOption]
  | ok outputs => simp [Except.toOption]

/-- All that is planned for decks. -/
def parcels (publisher : Publisher) (tree : FileTree) (decks : List Path) : List Parcel :=
  decks.flatMap fun deck => (publisher.plan tree deck).getD []

theorem mem_parcels {publisher : Publisher} {tree : FileTree} {decks : List Path}
    {parcel : Parcel} :
    parcel ∈ publisher.parcels tree decks ↔ ∃ deck ∈ decks, ∃ output,
      publisher.HasOutput tree deck output ∧ publisher.parcel deck output = parcel := by
  simp only [parcels, List.mem_flatMap, mem_plan]

theorem place_parcel {publisher : Publisher} {deck : Path} {output : Output}
    (isName : Path.IsName (publisher.nameFor deck output.language)) (tree : FileTree) :
    (publisher.parcel deck output).place tree =
      tree.destination (publisher.outputPath deck output.language) :=
  (FileTree.destination_join tree (publisher.outputFolder deck) isName).symm

theorem mem_parcels_of_plan {publisher : Publisher} {tree : FileTree} {decks : List Path}
    {deck : Path} (member : deck ∈ decks) {parcel : Parcel}
    (inPlan : parcel ∈ (publisher.plan tree deck).getD []) :
    parcel ∈ publisher.parcels tree decks :=
  List.mem_flatMap.mpr ⟨deck, member, inPlan⟩

/-- What is planned for decks is for folders that are there, or for the configured one. -/
theorem family_parcels {config : Config} {requested : Option Text} {publisher : Publisher}
    (made : ofConfig config requested = .ok publisher) {tree : FileTree} (closed : tree.Closed)
    {decks : List Path} (slashFree : ∀ deck ∈ decks, publisher.SlashFree tree deck) :
    Parcel.Family (publisher.parcels tree decks) tree := by
  obtain ⟨rfl, -⟩ := of_ofConfig_eq_ok made
  refine ⟨closed, ?_, ?_⟩
  · intro parcel member
    obtain ⟨deck, inDecks, output, ⟨outputs, planned, inOutputs⟩, rfl⟩ := mem_parcels.mp member
    exact (placed_of_outputsOn made closed (slashFree deck inDecks) planned).names output inOutputs
  · cases configured : config.output.directory with
    | none =>
      left
      intro parcel member
      obtain ⟨deck, -, output, ⟨outputs, planned, -⟩, rfl⟩ := mem_parcels.mp member
      obtain ⟨isFile, -⟩ := of_outputsOn_eq_ok planned
      obtain ⟨folder, -, parent, -, reaches⟩ := parent_of_kindOn_file closed isFile
      rwa [parcel, outputFolder, configured, parent]
    | some directory =>
      by_cases empty : decks = []
      · exact .inl (by simp [parcels, empty])
      · right
        obtain ⟨deck, inDecks⟩ := List.exists_mem_of_ne_nil decks empty
        refine ⟨directory, ?_, ?_⟩
        · intro up
          exact (slashFree deck inDecks).folder directory configured (List.mem_filter.mp up).1
        · intro parcel member
          obtain ⟨other, -, output, -, rfl⟩ := mem_parcels.mp member
          rw [parcel, outputFolder, configured]
          rfl

/-- Carrying out a plan keeps what all its deliveries keep. -/
theorem keeps_carryOut (Holds : FileTree → Prop) {force : Bool} {plan : Option (List Parcel)}
    (keeps : ∀ parcel ∈ plan.getD [], (parcel.deliver force).Keeps Holds) :
    (carryOut force plan).Keeps Holds := by
  cases plan with
  | none => exact fun tree holds => holds
  | some parcels => exact Change.keeps_all Holds keeps

/-- Plans are apart if their deliveries are. -/
theorem apart_carryOut (Holds : FileTree → Prop) {force : Bool} {plan next : Option (List Parcel)}
    (keeps : ∀ parcel ∈ plan.getD [], (parcel.deliver force).Keeps Holds)
    (keepsNext : ∀ parcel ∈ next.getD [], (parcel.deliver force).Keeps Holds)
    (apart : ∀ parcel ∈ plan.getD [], ∀ other ∈ next.getD [], ∀ tree, Holds tree →
      (parcel.deliver force).Apart (other.deliver force) tree)
    {tree : FileTree} (holds : Holds tree) :
    (carryOut force plan).Apart (carryOut force next) tree := by
  rcases plan with _ | parcels
  · exact ⟨rfl, rfl, rfl⟩
  rcases next with _ | others
  · exact ⟨rfl, rfl, rfl⟩
  refine Change.Apart.all Holds keeps ?_ holds
  intro parcel inPlan tree holds
  refine (Change.Apart.all Holds keepsNext ?_ holds).symm
  exact fun other inNext tree holds => (apart parcel inPlan other inNext tree holds).symm

/-! ## Plans on later trees -/

/-- A plan hangs on the deck file alone. -/
theorem plan_eq (publisher : Publisher) {start tree : FileTree} (keeps : start.KeepsFolders tree)
    {deck : Path} {location : Location} (followed : start.follow deck = .ok location)
    (same : tree.entry? location = start.entry? location) :
    publisher.plan tree deck = publisher.plan start deck := by
  have found := FileTree.find_eq_of_keeps keeps followed same
  have read : tree.readText deck = start.readText deck := by
    rw [FileTree.readText, FileTree.readText, FileTree.readFile, FileTree.readFile, found]
  have kind : kindOn tree deck = kindOn start deck := by rw [kindOn, kindOn, found]
  rw [plan, plan, outputsOn, outputsOn, read, kind]

/-- Where there is a folder for all outputs, it does not matter by which path a deck is found. -/
theorem plan_eq_of_find {publisher : Publisher} {directory : Path}
    (configured : publisher.config.output.directory = some directory) {tree : FileTree}
    {deck other : Path} (found : tree.find deck = tree.find other)
    (stem : Path.stem deck = Path.stem other) :
    publisher.plan tree deck = publisher.plan tree other := by
  have parcels : publisher.parcel deck = publisher.parcel other := by
    funext output
    rw [parcel, parcel, outputFolder, outputFolder, configured, nameFor, nameFor, outputName,
      outputName, stem]
    rfl
  have read : tree.readText deck = tree.readText other := by
    rw [FileTree.readText, FileTree.readText, FileTree.readFile, FileTree.readFile, found]
  have kind : kindOn tree deck = kindOn tree other := by rw [kindOn, kindOn, found]
  rw [plan, plan, parcels, outputsOn, outputsOn, read, kind]
  split
  · cases tree.readText other with
    | error error => rfl
    | ok source =>
      dsimp only
      cases publisher.render (Document.parse source) <;> rfl
  · rfl

/-! ## Several decks -/

/-- Renders deck files one after another on a machine. -/
def runAllOn (publisher : Publisher) (machine : Machine) (force : Bool) (decks : List Path) :
    FolderSummary × Machine :=
  (publisher.runAll force decks : Simulated FolderSummary) machine

theorem runAllOn_cons (publisher : Publisher) (machine : Machine) (force : Bool) (deck : Path)
    (rest : List Path) :
    publisher.runAllOn machine force (deck :: rest) =
      match machine.run (publisher.run deck force) with
      | (.ok written, after) =>
        (⟨(publisher.runAllOn after force rest).1.processed + 1,
          (publisher.runAllOn after force rest).1.failed,
          written ++ (publisher.runAllOn after force rest).1.written⟩,
          (publisher.runAllOn after force rest).2)
      | (.error failure, after) =>
        (⟨(publisher.runAllOn (after.tell (.deckFailed deck failure)) force rest).1.processed,
          (publisher.runAllOn (after.tell (.deckFailed deck failure)) force rest).1.failed + 1,
          (publisher.runAllOn (after.tell (.deckFailed deck failure)) force rest).1.written⟩,
          (publisher.runAllOn (after.tell (.deckFailed deck failure)) force rest).2) := by
  have attempt : (ExceptT.run (publisher.run deck force) : Simulated _) machine =
      machine.run (publisher.run deck force) := rfl
  rw [runAllOn, runAll, apply_bind, attempt]
  rcases machine.run (publisher.run deck force) with ⟨failure | written, after⟩ <;> rfl

/-- The summary of what became of the decks of a folder. -/
def summary (results : List (Option (List Path))) : FolderSummary :=
  ⟨results.countP Option.isSome, results.countP Option.isNone,
    results.flatMap fun written => written.getD []⟩

theorem summary_cons (result : Option (List Path)) (results : List (Option (List Path))) :
    summary (result :: results) =
      match result with
      | some written => ⟨(summary results).processed + 1, (summary results).failed,
          written ++ (summary results).written⟩
      | none => ⟨(summary results).processed, (summary results).failed + 1,
          (summary results).written⟩ := by
  cases result <;> simp [summary]

section

variable {Item : Type} (items : List Item) (result : Item → Except Failure (List Path))

theorem processed_summary :
    (summary (items.map fun item => (result item).toOption)).processed =
      items.countP fun item => (result item).isOk := by
  refine List.countP_map.trans (List.countP_congr fun item _ => ?_)
  rw [Function.comp_apply]
  cases result item <;> rfl

theorem failed_summary :
    (summary (items.map fun item => (result item).toOption)).failed =
      items.countP fun item => !(result item).isOk := by
  refine List.countP_map.trans (List.countP_congr fun item _ => ?_)
  rw [Function.comp_apply]
  cases result item <;> rfl

theorem written_summary :
    (summary (items.map fun item => (result item).toOption)).written =
      items.flatMap fun item => (result item).toOption.getD [] := by
  exact List.flatMap_map ..

end

section

variable {publisher : Publisher} {start : FileTree} {Holds : FileTree → Prop} {force : Bool}

/-- Decks are rendered by carrying out one plan after another, as long as something holds that
keeps the plans what they were at the start. -/
theorem runAllOn_eq {decks : List Path}
    (plans : ∀ tree, Holds tree → ∀ deck ∈ decks,
      publisher.plan tree deck = publisher.plan start deck)
    (names : ∀ deck ∈ decks, ∀ parcels, publisher.plan start deck = some parcels →
      ∀ parcel ∈ parcels, Path.IsName parcel.name)
    (keeps : ∀ deck ∈ decks, (carryOut force (publisher.plan start deck)).Keeps Holds)
    (machine : Machine) (holds : Holds machine.tree) :
    (publisher.runAllOn machine force decks).1 =
        summary (Change.each (decks.map fun deck => carryOut force (publisher.plan start deck))
          machine.tree).1 ∧
      (publisher.runAllOn machine force decks).2.tree =
        (Change.each (decks.map fun deck => carryOut force (publisher.plan start deck))
          machine.tree).2 := by
  induction decks generalizing machine with
  | nil => exact ⟨rfl, rfl⟩
  | cons deck rest ih =>
    have member : deck ∈ deck :: rest := List.mem_cons_self ..
    have planned := plans machine.tree holds deck member
    have ran := upshot_run publisher deck force machine
      (fun parcels same => names deck member parcels (planned.symm.trans same))
    have kept := keeps deck member machine.tree holds
    have ih := ih
      (fun tree holds other inRest => plans tree holds other (List.mem_cons_of_mem _ inRest))
      (fun other inRest => names other (List.mem_cons_of_mem _ inRest))
      (fun other inRest => keeps other (List.mem_cons_of_mem _ inRest))
    rw [planned] at ran
    rw [← ran] at kept
    rw [runAllOn_cons, List.map_cons, Change.each, ← ran, summary_cons]
    rw [upshot] at kept ⊢
    revert kept
    rcases machine.run (publisher.run deck force) with ⟨failure | written, after⟩
    · intro kept
      obtain ⟨result, tree⟩ := ih (after.tell (.deckFailed deck failure)) (by rwa [tree_tell])
      rw [tree_tell] at result tree
      dsimp only
      rw [result, tree]
      exact ⟨rfl, rfl⟩
    · intro kept
      obtain ⟨result, tree⟩ := ih after kept
      dsimp only
      rw [result, tree]
      exact ⟨rfl, rfl⟩

end

end Publisher
end Lectern
