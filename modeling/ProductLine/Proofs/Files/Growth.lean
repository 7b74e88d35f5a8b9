/- # Growth — trees that keep what they have

Creating directories and writing files takes nothing out of a tree and puts
nothing in the place of something else.  New nodes are directories, and files
that were not stored before; links there are as many as ever.  So a path that
has led to a location goes on to lead there, and what is said of the paths of a
tree stays right while the tree grows.

A path need not lead to anything to have a location, and many paths may have the
same one.  So all of this is said of locations, and of paths only through them.
-/
import ProductLine.Files.Store

namespace ProductLine

/-- The number under which is kept what is written to the node. -/
def FileNode.number? : FileNode → Option Nat
  | .file number | .device (.channel number) => some number
  | _ => none

namespace FileTree

variable {t t' t'' : FileTree} {loc : Location} {path : String}

/-! ## Growing -/

/-- A last step leads to its place, whatever is there, unless it is a link. -/
theorem walkBy_singleton {followsLast : Bool}
    {leap : Location → List String → Except FileFault Location} {step : String}
    (short : ¬ maxNameBytes < step.utf8ByteSize)
    (unlinked : ∀ target, t.node? (follow loc step) ≠ some (.link target)) :
    t.walkBy followsLast leap loc [step] = .ok (follow loc step) := by
  rw [walkBy, if_neg short]
  cases there : t.node? (follow loc step) with
  | none => rfl
  | some node =>
    cases node with
    | directory => rfl
    | link target => exact absurd there (unlinked target)
    | file | device => rfl

/-- What was there is there, and what is new is a directory or a file with a new number. -/
structure GrowsTo (t t' : FileTree) : Prop where
  workingDirectory : t'.workingDirectory = t.workingDirectory
  stored : t.stored.size ≤ t'.stored.size
  kept : ∀ loc node, t.node? loc = some node → t'.node? loc = some node
  added : ∀ loc node, t'.node? loc = some node → t.node? loc = some node ∨
    node = .directory ∨ ∃ number, node = .file number ∧ t.stored.size ≤ number

namespace GrowsTo

theorem refl (t : FileTree) : t.GrowsTo t :=
  ⟨rfl, Nat.le_refl _, fun _ _ h => h, fun _ _ h => .inl h⟩

theorem trans (h : t.GrowsTo t') (h' : t'.GrowsTo t'') : t.GrowsTo t'' where
  workingDirectory := h'.workingDirectory.trans h.workingDirectory
  stored := Nat.le_trans h.stored h'.stored
  kept loc node there := h'.kept loc node (h.kept loc node there)
  added loc node there := by
    rcases h'.added loc node there with old | rfl | ⟨number, rfl, new⟩
    · exact h.added loc node old
    · exact .inr (.inl rfl)
    · exact .inr (.inr ⟨number, rfl, Nat.le_trans h.stored new⟩)

/-- Where nothing was, there is no link. -/
theorem ne_link (h : t.GrowsTo t') (free : t.node? loc = none) (target : String) :
    t'.node? loc ≠ some (.link target) := by
  intro there
  rcases h.added loc _ there with old | directory | ⟨number, file, -⟩
  · rw [free] at old
    cases old
  · cases directory
  · cases file

/-- Steps that lead somewhere lead there still if the links on their way do. -/
theorem walkBy (h : t.GrowsTo t') {followsLast : Bool}
    {leap leap' : Location → List String → Except FileFault Location}
    (leaps : ∀ loc steps place, leap loc steps = .ok place → leap' loc steps = .ok place)
    {steps : List String} {place : Location}
    (walked : t.walkBy followsLast leap loc steps = .ok place) :
    t'.walkBy followsLast leap' loc steps = .ok place := by
  induction steps generalizing loc with
  | nil => exact walked
  | cons step rest ih =>
    rw [FileTree.walkBy] at walked
    split at walked
    · cases walked
    rename_i short
    split at walked
    case h_1 directory =>
      rw [FileTree.walkBy, if_neg short, h.kept _ _ directory]
      exact ih walked
    case h_2 target link =>
      rw [FileTree.walkBy, if_neg short, h.kept _ _ link]
      dsimp only
      split at walked
      · rename_i last
        rwa [if_pos last]
      · rename_i further
        rw [if_neg further]
        exact leaps _ _ _ walked
    case h_3 node noDirectory noLink there =>
      split at walked
      · rename_i last
        obtain rfl := List.isEmpty_iff.mp last
        have unlinked (target : String) : node ≠ .link target := noLink target
        rwa [walkBy_singleton short (by simpa [h.kept _ _ there] using unlinked)]
      · cases walked
    case h_4 free =>
      -- What has been put there since is no link, so the step still ends there.
      split at walked
      · rename_i last
        obtain rfl := List.isEmpty_iff.mp last
        rwa [walkBy_singleton short (h.ne_link free)]
      · cases walked

theorem walk (h : t.GrowsTo t') {followsLast : Bool} {links : Nat} {steps : List String}
    {place : Location} (walked : t.walk followsLast links loc steps = .ok place) :
    t'.walk followsLast links loc steps = .ok place := by
  induction links generalizing loc steps place with
  | zero => exact h.walkBy (fun _ _ _ tooMany => by cases tooMany) walked
  | succ links ih => exact h.walkBy (fun _ _ _ => ih) walked

theorem locatePath (h : t.GrowsTo t') {followsLast : Bool}
    (located : t.locatePath followsLast path = .ok loc) :
    t'.locatePath followsLast path = .ok loc := by
  unfold FileTree.locatePath locate at located ⊢
  split at located
  · cases located
  rename_i clean
  split at located
  · cases located
  rename_i short
  split at located
  · cases located
  rename_i somewhere
  rw [if_neg clean, if_neg short, if_neg somewhere, h.workingDirectory]
  exact h.walk located

/-- A path that can be opened goes on to open what it opened. -/
theorem openFile (h : t.GrowsTo t') {opened : Opened} (opens : t.openFile path = .ok opened) :
    t'.openFile path = .ok opened := by
  unfold FileTree.openFile at opens ⊢
  split at opens
  · cases opens
  rename_i loc located
  rw [h.locatePath located]
  dsimp only at opens ⊢
  cases there : t.node? loc with
  | none =>
    rw [there] at opens
    cases opens
  | some node =>
    rw [there] at opens
    rwa [h.kept loc node there]

end GrowsTo

/-! ## Numbers -/

/-- The numbers in a tree are those of what is stored, and what is written to a channel is kept
apart from all files that have a name. -/
structure Sound (t : FileTree) : Prop where
  numbered : ∀ loc node number, t.node? loc = some node → node.number? = some number →
    number < t.stored.size
  apart : ∀ loc place number, t.node? loc = some (.file number) →
    t.node? place ≠ some (.device (.channel number))

theorem mem_entries_of_node? {node : FileNode} (there : t.node? loc = some node)
    (number : node.number? ≠ none) : ∃ entry ∈ t.entries, entry.2 = node := by
  unfold node? at there
  split at there
  · obtain rfl := Option.some.inj there
    exact absurd rfl number
  · obtain ⟨before, after, heq, -⟩ := List.lookup_eq_some_iff.mp there
    exact ⟨(loc, node), by rw [heq]; simp, rfl⟩

/-- It is enough to look through the entries. -/
theorem sound_of_entries
    (numbered : ∀ entry ∈ t.entries, ∀ number ∈ entry.2.number?, number < t.stored.size)
    (apart : ∀ entry ∈ t.entries, ∀ other ∈ t.entries, ∀ number ∈ entry.2.number?,
      entry.2 = .file number → other.2 ≠ .device (.channel number)) : t.Sound where
  numbered loc node number there hnumber := by
    obtain ⟨entry, hentry, rfl⟩ := mem_entries_of_node? there (by simp [hnumber])
    exact numbered entry hentry number hnumber
  apart loc place number there there' := by
    obtain ⟨entry, hentry, hfile⟩ := mem_entries_of_node? there (by simp [FileNode.number?])
    obtain ⟨other, hother, hchannel⟩ := mem_entries_of_node? there' (by simp [FileNode.number?])
    exact apart entry hentry other hother number (by rw [hfile]; rfl) hfile hchannel

theorem sound_fresh : fresh.Sound :=
  sound_of_entries (by decide) (by decide)

/-! ## Directories -/

/-- The location is one of those that are looked at when the directory of a path is created. -/
def LiesOver (t : FileTree) (path : String) (loc : Location) : Prop :=
  ∃ r, (Route.ofText path).parent? = some r ∧ ∃ depth, t.locatePath false
    ({ absolute := r.absolute, steps := r.steps.take depth } : Route).text = .ok loc

/-- The tree has got more directories, all of them over the path, and nothing else. -/
structure AddsDirectories (path : String) (t t' : FileTree) : Prop where
  workingDirectory : t'.workingDirectory = t.workingDirectory
  stored : t'.stored = t.stored
  kept : ∀ loc node, t.node? loc = some node → t'.node? loc = some node
  added : ∀ loc node, t'.node? loc = some node → t.node? loc = some node ∨
    (node = .directory ∧ t'.LiesOver path loc)

theorem LiesOver.of_growsTo (h : t.GrowsTo t') (above : t.LiesOver path loc) :
    t'.LiesOver path loc := by
  obtain ⟨r, parent, depth, located⟩ := above
  exact ⟨r, parent, depth, h.locatePath located⟩

namespace AddsDirectories

theorem refl (path : String) (t : FileTree) : t.AddsDirectories path t :=
  ⟨rfl, rfl, fun _ _ h => h, fun _ _ h => .inl h⟩

theorem growsTo (h : t.AddsDirectories path t') : t.GrowsTo t' where
  workingDirectory := h.workingDirectory
  stored := Nat.le_of_eq (by rw [h.stored])
  kept := h.kept
  added loc node there := (h.added loc node there).imp_right fun new => .inl new.1

theorem trans (h : t.AddsDirectories path t') (h' : t'.AddsDirectories path t'') :
    t.AddsDirectories path t'' where
  workingDirectory := h'.workingDirectory.trans h.workingDirectory
  stored := h'.stored.trans h.stored
  kept loc node there := h'.kept loc node (h.kept loc node there)
  added loc node there := by
    rcases h'.added loc node there with old | new
    · rcases h.added loc node old with older | ⟨directory, above⟩
      · exact .inl older
      · exact .inr ⟨directory, above.of_growsTo h'.growsTo⟩
    · exact .inr new

theorem sound (h : t.AddsDirectories path t') (sound : t.Sound) : t'.Sound := by
  have old {loc node number} (there : t'.node? loc = some node)
      (hnumber : node.number? = some number) : t.node? loc = some node := by
    rcases h.added loc node there with old | ⟨rfl, -⟩
    · exact old
    · cases hnumber
  constructor
  · intro loc node number there hnumber
    rw [h.stored]
    exact sound.numbered loc node number (old there hnumber) hnumber
  · intro loc place number there there'
    exact sound.apart loc place number (old there rfl) (old there' rfl)

end AddsDirectories

/-- There is always something at the root. -/
theorem ne_nil_of_free (free : t.node? loc = none) : loc ≠ [] := by
  rintro rfl
  cases free

/-- A tree grows by a node in a free place. -/
theorem GrowsTo.put (free : t.node? loc = none) {node : FileNode} {stored : Array StoredFile}
    (size : t.stored.size ≤ stored.size)
    (new : node = .directory ∨ ∃ number, node = .file number ∧ t.stored.size ≤ number) :
    t.GrowsTo { t.put loc node with stored := stored } := by
  refine ⟨rfl, size, fun place there hplace => ?kept, fun place there hplace => ?added⟩
  case kept =>
    have elsewhere : place ≠ loc := by
      rintro rfl
      rw [free] at hplace
      cases hplace
    exact (node?_put_of_ne elsewhere).trans hplace
  case added =>
    by_cases here : place = loc
    · subst here
      obtain rfl := Option.some.inj ((node?_put_self (ne_nil_of_free free)).symm.trans hplace)
      exact .inr new
    · exact .inl ((node?_put_of_ne here).symm.trans hplace)

/-- A directory is made in a free place, or it is there already. -/
theorem ensureDirectory_eq_ok {r : Route} (h : t.ensureDirectory r = .ok t') :
    t' = t ∨ ∃ loc, t.locatePath false r.text = .ok loc ∧ t.node? loc = none ∧
      t' = t.put loc .directory := by
  unfold ensureDirectory at h
  split at h
  · split at h
    · exact .inl (Except.ok.inj h).symm
    · cases h
  · unfold makeDirectory at h
    split at h
    · cases h
    rename_i loc located
    split at h
    · cases h
    rename_i free
    exact .inr ⟨loc, located, free, (Except.ok.inj h).symm⟩

theorem addsDirectories_of_ensureDirectory {r : Route}
    (parent : (Route.ofText path).parent? = some r) {depth : Nat}
    (h : t.ensureDirectory { absolute := r.absolute, steps := r.steps.take depth } = .ok t') :
    t.AddsDirectories path t' := by
  rcases ensureDirectory_eq_ok h with rfl | ⟨loc, located, free, rfl⟩
  · exact .refl path t'
  have grows : t.GrowsTo (t.put loc .directory) :=
    .put free (Nat.le_refl t.stored.size) (.inl rfl)
  refine ⟨rfl, rfl, grows.kept, fun place node there => ?_⟩
  by_cases here : place = loc
  · subst here
    rw [node?_put_self (ne_nil_of_free free)] at there
    exact .inr ⟨(Option.some.inj there).symm, r, parent, depth, grows.locatePath located⟩
  · rw [node?_put_of_ne here] at there
    exact .inl there

theorem addsDirectories_createUpTo {r : Route} (parent : (Route.ofText path).parent? = some r)
    (depth : Nat) : t.AddsDirectories path (t.createUpTo r.absolute r.steps depth).2 := by
  -- The directories above are tried only when this one has no place to stand.
  induction depth with
  | zero => exact .refl path t
  | succ depth ih =>
    rw [createUpTo]
    split
    · rename_i created hcreated
      exact addsDirectories_of_ensureDirectory parent hcreated
    · split
      · rename_i stopped hstopped
        rwa [hstopped] at ih
      · rename_i paved hpaved
        rw [hpaved] at ih
        split
        · exact ih
        · rename_i created hcreated
          exact ih.trans (addsDirectories_of_ensureDirectory parent hcreated)
    · exact .refl path t

/-- Whether or not the directory of a path can be created, directories over it are all that comes
of the attempt. -/
theorem addsDirectories_createDirectories {r : Route}
    (parent : (Route.ofText path).parent? = some r) :
    t.AddsDirectories path (t.createDirectories r).2 :=
  addsDirectories_createUpTo parent r.steps.length

end FileTree

end ProductLine
