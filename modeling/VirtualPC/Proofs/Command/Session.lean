/-
VirtualPC/Proofs/Command/Session.lean

What a command does on a file tree.  It takes the lines printed so far and the tree, and gives a
result or a failure together with the lines and the tree it leaves.  Lines printed before a
failure stay.  A command that runs a program goes through

    create the machine;  load the program;  print the listing;  run the ticks;
    print the summary and the dump;  save the last frame;  report a fault

and each of these has one lemma about what it does.  Main result: `perform_of_loads`, all that a
command does whose program loads and whose ticks run through, for any options.

How options are read from the words of a command line plays no part in it.  `run_of_perform`
takes what a command does over to the report of any words that are read as its options.
-/
import VirtualPC.Command.Run
import VirtualPC.Files.Tree

namespace VirtualPC.Command

/-- A command over a file tree. -/
abbrev TreeSession (α : Type) : Type := Session (StateM FileTree) α

variable {α β ε : Type} {x : TreeSession α} {printed after : Array String} {tree left : FileTree}
  {o : Options} {blank m : Machine}

/-! ### Parts of a command -/

/-- What has succeeded hands over to what follows. -/
theorem bind_of_ok {f : α → TreeSession β} {a : α} (h : x printed tree = ((.ok a, after), left)) :
    (x >>= f) printed tree = f a after left := by
  show ExceptT.bindCont f (x printed tree).1.1 (x printed tree).1.2 (x printed tree).2 = _
  rw [h]
  rfl

/-- Nothing follows a failure. -/
theorem bind_of_error {f : α → TreeSession β} {failure : Failure}
    (h : x printed tree = ((.error failure, after), left)) :
    (x >>= f) printed tree = ((.error failure, after), left) := by
  show ExceptT.bindCont f (x printed tree).1.1 (x printed tree).1.2 (x printed tree).2 = _
  rw [h]
  rfl

theorem onFiles_of_ok {y : ExceptT ε (StateM FileTree) α} {a : α} (message : String)
    (text : ε → String) (h : y tree = (.ok a, left)) :
    (onFiles message text y : TreeSession α) printed tree = ((.ok a, printed), left) := by
  show (orFail message (fun e => [text e]) (y tree).1 : TreeSession α) printed (y tree).2 = _
  rw [h]
  rfl

theorem onFiles_of_error {y : ExceptT ε (StateM FileTree) α} {e : ε} (message : String)
    (text : ε → String) (h : y tree = (.error e, left)) :
    (onFiles message text y : TreeSession α) printed tree
      = ((.error ⟨message, [text e]⟩, printed), left) := by
  show (orFail message (fun e => [text e]) (y tree).1 : TreeSession α) printed (y tree).2 = _
  rw [h]
  rfl

/-- The result of a command that fails so, or does not fail. -/
def ended : Option Failure → Except Failure Unit
  | none => .ok ()
  | some failure => .error failure

/-! ### Loading -/

/-- The name a program goes by. -/
def Options.programName (o : Options) : String :=
  match o.rom with
  | some file => (Path.fileName? file).getD file
  | none => o.program.getD "demo"

/-- Loads the program that the options name, and gives its name. -/
def loadNamed (o : Options) (blank : Machine) : TreeSession (Machine × String) :=
  match o.rom with
  | some file => loadRom blank file
  | none => loadSample blank (o.program.getD "demo")

/-- The options describe a machine that can be created, and name a program that loads into it
and leaves the machine `m`. -/
def Options.Loads (o : Options) (tree : FileTree) (m : Machine) : Prop :=
  ∃ blank, Machine.create o.config = .ok blank ∧
    match o.rom with
    | some file => ∃ image, tree.readFile file = .ok image ∧ image ≠ [] ∧
        blank.loadProgram image = .ok m
    | none => blank.loadSample (o.program.getD "demo") = .ok m

theorem loadRom_of_ok {file : String} {image : List UInt8} (hread : tree.readFile file = .ok image)
    (hne : image ≠ []) (hload : blank.loadProgram image = .ok m) :
    (loadRom blank file : TreeSession _) printed tree
      = ((.ok (m, (Path.fileName? file).getD file), printed), tree) := by
  have hfile : (FileStore.readFile file : ExceptT FileError (StateM FileTree) _) tree
      = (.ok image, tree) := by
    show (tree.readFile file, tree) = _
    rw [hread]
  refine (bind_of_ok (onFiles_of_ok _ _ hfile)).trans ?_
  rw [if_neg (by rwa [List.isEmpty_iff]), hload]
  rfl

theorem loadSample_of_ok {name : String} (hload : blank.loadSample name = .ok m) :
    (loadSample blank name : TreeSession _) printed tree = ((.ok (m, name), printed), tree) := by
  rw [loadSample, hload]
  rfl

/-! ### The end of a command -/

/-- The listing that is printed before the program runs. -/
def Options.openingLines (o : Options) (m : Machine) : List String :=
  match o.disasm with
  | some count => Listing.window m.rom (UInt16.ofNat m.config.loadAddress) 0 count
  | none => []

/-- The summary and the dump that are printed after it has run. -/
def Options.closingLines (o : Options) (e : Emulation) : List String :=
  e.summary :: match o.dumpRam with
    | some address => e.machine.core.ram.dump address (o.dumpLines.getD 8) dumpWidth
    | none => []

/-- Saves the last frame if the options ask for it: what comes of this, and the tree it leaves. -/
def Options.saveFrame (o : Options) (picture : Picture) (tree : FileTree) :
    Except SaveError Unit × FileTree :=
  match o.framePng with
  | some file => (savePicture file picture : ExceptT SaveError (StateM FileTree) Unit) tree
  | none => (.ok (), tree)

/-- The failure of a program. -/
def guestFault (cause : Fault) : Failure := ⟨"guest fault: " ++ cause.message, []⟩

/-- Why a command that has run a program fails, if it does.  That the frame cannot be saved comes
before a fault of the program. -/
def Options.failure (o : Options) (saved : Except SaveError Unit) (fault : Option Fault) :
    Option Failure :=
  match saved with
  | .error cause => some ⟨"failed to write PNG: " ++ o.framePng.getD "", [cause.message]⟩
  | .ok () => fault.map guestFault

/-- Saves the last frame and reports a fault. -/
def finish (o : Options) (e : Emulation) : TreeSession Unit := do
  if let some file := o.framePng then
    onFiles ("failed to write PNG: " ++ file) SaveError.message
      (savePicture file e.machine.display.picture)
  if let some cause := e.fault then
    throw (guestFault cause)

/-- All that follows the ticks. -/
def conclude (o : Options) (e : Emulation) : TreeSession Unit := do
  print [e.summary]
  if let some address := o.dumpRam then
    print (e.machine.core.ram.dump address (o.dumpLines.getD 8) dumpWidth)
  finish o e

theorem finish_eq (o : Options) (e : Emulation) (printed : Array String) (tree : FileTree) :
    let saved := o.saveFrame e.machine.display.picture tree
    finish o e printed tree = ((ended (o.failure saved.1 e.fault), printed), saved.2) := by
  unfold finish Options.saveFrame Options.failure
  rcases o.framePng with _ | file
  · rcases e.fault with _ | cause <;> rfl
  · intro saved
    rcases hsaved : (savePicture file e.machine.display.picture :
      ExceptT SaveError (StateM FileTree) Unit) tree with ⟨failure | ⟨⟩, left⟩
    · have hout : saved = (.error failure, left) := hsaved
      rw [hout]
      exact bind_of_error (onFiles_of_error _ _ hsaved)
    · have hout : saved = (.ok (), left) := hsaved
      rw [hout]
      refine (bind_of_ok (onFiles_of_ok _ _ hsaved)).trans ?_
      rcases e.fault with _ | cause <;> rfl

theorem conclude_eq (o : Options) (e : Emulation) (printed : Array String) (tree : FileTree) :
    conclude o e printed tree = finish o e (printed ++ (o.closingLines e).toArray) tree := by
  unfold conclude Options.closingLines
  rcases o.dumpRam with _ | address
  · rfl
  · have happend : ∀ lines : List String, printed ++ [e.summary].toArray ++ lines.toArray
        = printed ++ (e.summary :: lines).toArray := by
      simp
    exact congrArg (fun printed => finish o e printed tree) (happend _)

/-! ### A command that runs a program -/

/-- The program whose status is shown, if the options ask for the status screen. -/
def Options.screen (o : Options) : Option String :=
  if o.statusScreen then some o.programName else none

/-- All that follows the loading of a program. -/
def runLoaded (o : Options) (machine : Machine) (name : String) : TreeSession Unit := do
  if let some count := o.disasm then
    print (Listing.window machine.rom (UInt16.ofNat machine.config.loadAddress) 0 count)
  let screen := if o.statusScreen then some name else none
  let e ← orFail "tick failed" machineCauses
    (Emulation.run screen (o.ticks.getD 60) (Emulation.start machine))
  conclude o e

theorem emulate_eq (o : Options) : (emulate o : TreeSession Unit) = (do
    let blank ← orFail "failed to create machine" machineCauses (Machine.create o.config)
    let loaded ← loadNamed o blank
    runLoaded o loaded.1 loaded.2) := by
  unfold emulate loadNamed
  refine bind_congr fun blank => ?_
  rcases o.rom with _ | file <;> rfl

theorem loadNamed_of_loads (printed : Array String) (hload : o.Loads tree m) :
    ∃ blank, Machine.create o.config = .ok blank ∧
      loadNamed o blank printed tree = ((.ok (m, o.programName), printed), tree) := by
  obtain ⟨blank, hcreate, hload⟩ := hload
  refine ⟨blank, hcreate, ?_⟩
  unfold loadNamed Options.programName
  rcases hrom : o.rom with _ | file
  · rw [hrom] at hload
    exact loadSample_of_ok hload
  · rw [hrom] at hload
    obtain ⟨image, hread, hne, hload⟩ := hload
    exact loadRom_of_ok hread hne hload

theorem runLoaded_of_run {e : Emulation} (printed : Array String) (tree : FileTree)
    (hrun : Emulation.run o.screen (o.ticks.getD 60) (Emulation.start m) = .ok e) :
    runLoaded o m o.programName printed tree
      = conclude o e (printed ++ (o.openingLines m).toArray) tree := by
  have hticks : Emulation.run (if o.statusScreen then some o.programName else none)
      (o.ticks.getD 60) (Emulation.start m) = .ok e := hrun
  rw [runLoaded, Options.openingLines]
  dsimp only
  rw [hticks]
  rcases o.disasm with _ | count
  · rw [Array.append_empty]
    rfl
  · rfl

/-- **What a command does that runs a program**, once the program has loaded and the ticks have
run through. -/
theorem perform_of_loads {e : Emulation} (hlist : o.listPrograms = false)
    (hinstall : o.installSamples = none) (hload : o.Loads tree m)
    (hrun : Emulation.run o.screen (o.ticks.getD 60) (Emulation.start m) = .ok e) :
    let saved := o.saveFrame e.machine.display.picture tree
    (perform o : TreeSession Unit) #[] tree = ((ended (o.failure saved.1 e.fault),
      (o.openingLines m ++ o.closingLines e).toArray), saved.2) := by
  intro saved
  obtain ⟨blank, hcreate, hloaded⟩ := loadNamed_of_loads #[] hload
  have hcreated : (orFail "failed to create machine" machineCauses (.ok blank) :
      TreeSession Machine) #[] tree = ((.ok blank, #[]), tree) := rfl
  have hemulate : (emulate o : TreeSession Unit) #[] tree
      = conclude o e (o.openingLines m).toArray tree := by
    rw [emulate_eq, hcreate, bind_of_ok hcreated, bind_of_ok hloaded, runLoaded_of_run _ _ hrun,
      Array.empty_append]
  rw [perform, hlist, hinstall]
  show (emulate o : TreeSession Unit) #[] tree = _
  rw [hemulate, conclude_eq, finish_eq, List.append_toArray]

/-! ### The words of a command line -/

/-- A command line reports what its command printed and how it ended. -/
theorem run_of_perform {words : List String} {failure : Option Failure}
    (hwords : Options.ofWords words = .ok o)
    (h : (perform o : TreeSession Unit) #[] tree = ((ended failure, after), left)) :
    (run words : StateM FileTree Report) tree = (.finished after.toList failure, left) := by
  have hbind : ∀ f : _ → StateM FileTree Report,
      (((perform o : TreeSession Unit).run #[] : StateM FileTree _) >>= f) tree
        = f (ended failure, after) left := by
    intro f
    show f ((perform o : TreeSession Unit) #[] tree).1 ((perform o : TreeSession Unit) #[] tree).2
      = _
    rw [h]
  rw [run, hwords]
  refine (hbind _).trans ?_
  cases failure with
  | none => rfl
  | some failure => rfl

end VirtualPC.Command
