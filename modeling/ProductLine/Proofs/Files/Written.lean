/- # Written — what a tree holds when texts have been written to its paths

A text is written to whatever its path leads to.  That may be a file, which
then holds the text and nothing else, a free place, where a file is created, or
a device, which makes of the text what it likes.  Several paths may lead to one
file, and then the last text is the one that stays.

All is said of the tree as it is at the end.  Which file a path leads to is the
same there as it was when the path was written to, because trees grow; so no
order of events is left in the statements but that of the texts.
-/
import ProductLine.Proofs.Files.Growth

namespace ProductLine.FileTree

variable {t t' t'' : FileTree} {loc : Location} {path text : String} {content : ByteArray}

/-- What is written to the path is kept under that number. -/
def Reaches (t : FileTree) (path : String) (number : Nat) : Prop :=
  ∃ loc node, t.locatePath true path = .ok loc ∧ t.node? loc = some node ∧
    node.number? = some number

theorem Reaches.of_growsTo (h : t.GrowsTo t') {number : Nat} (reaches : t.Reaches path number) :
    t'.Reaches path number := by
  obtain ⟨loc, node, located, there, hnumber⟩ := reaches
  exact ⟨loc, node, h.locatePath located, h.kept loc node there, hnumber⟩

section Opening

variable (located : t.locatePath true path = .ok loc)
  (bare : (Route.ofText path).slashAtEnd = false)
include located bare

theorem openFile_of_file {number : Nat} (there : t.node? loc = some (.file number)) :
    t.openFile path = .ok (.file number) := by
  unfold openFile
  rw [located]
  dsimp only
  rw [there, bare]
  rfl

theorem openFile_of_device {d : Device} (there : t.node? loc = some (.device d))
    (present : d ≠ .missing) : t.openFile path = .ok .device := by
  unfold openFile
  rw [located]
  dsimp only
  rw [there, bare]
  cases d with
  | missing => exact absurd rfl present
  | _ => rfl

end Opening

/-- Opening a path to a file gives that file, unless the path ends with a slash. -/
theorem opened_of_file {number : Nat} (located : t.locatePath true path = .ok loc)
    (there : t.node? loc = some (.file number)) {opened : Opened}
    (opens : t.openFile path = .ok opened) : opened = .file number := by
  unfold openFile at opens
  rw [located] at opens
  dsimp only at opens
  rw [there] at opens
  dsimp only at opens
  split at opens
  · cases opens
  · exact (Except.ok.inj opens).symm

theorem node?_of_openFile {number : Nat} (opens : t.openFile path = .ok (.file number)) :
    ∃ loc, t.locatePath true path = .ok loc ∧ t.node? loc = some (.file number) := by
  unfold openFile at opens
  split at opens
  · cases opens
  rename_i loc located
  refine ⟨loc, located, ?_⟩
  dsimp only at opens
  split at opens
  all_goals try cases opens
  · split at opens <;> cases opens
  · rename_i there
    split at opens
    · cases opens
    · cases opens
      exact there

/-! ## One text -/

/-- What the tree may be after the content has been written to the path. -/
inductive Writes (t : FileTree) (path : String) (content : ByteArray) : FileTree → Prop where
  | rewritten {loc : Location} {number : Nat} : t.locatePath true path = .ok loc →
      t.node? loc = some (.file number) →
      Writes t path content (t.modifyContent number fun _ => content)
  | created {loc : Location} : t.locatePath true path = .ok loc → t.node? loc = none →
      Writes t path content (t.create loc { content := content })
  | appended {loc : Location} {number : Nat} : t.locatePath true path = .ok loc →
      t.node? loc = some (.device (.channel number)) →
      Writes t path content (t.modifyContent number (· ++ content))
  | swallowed {loc : Location} {d : Device} : t.locatePath true path = .ok loc →
      t.node? loc = some (.device d) → d ≠ .missing → (FileNode.device d).number? = none →
      Writes t path content t

theorem writes_of_writeFile (h : t.writeFile path content = .ok t') :
    (Route.ofText path).slashAtEnd = false ∧ t.Writes path content t' := by
  unfold writeFile at h
  split at h
  · cases h
  rename_i loc located
  split at h
  · cases h
  rename_i bare
  refine ⟨Bool.eq_false_iff.mpr bare, ?_⟩
  split at h
  · cases h
  · cases h
  · rename_i d device
    cases d with
    | channel number =>
      obtain rfl := Except.ok.inj h
      exact .appended located device
    | missing => cases h
    | sink | zeros | noise =>
      obtain rfl := Except.ok.inj h
      exact .swallowed located device nofun rfl
    | full =>
      unfold writeDevice at h
      dsimp only at h
      split at h
      · obtain rfl := Except.ok.inj h
        exact .swallowed located device nofun rfl
      · cases h
  · rename_i number file
    obtain rfl := Except.ok.inj h
    exact .rewritten located file
  · rename_i free
    obtain rfl := Except.ok.inj h
    exact .created located free

@[simp] theorem size_stored_modifyContent (t : FileTree) (number : Nat)
    (f : ByteArray → ByteArray) : (t.modifyContent number f).stored.size = t.stored.size :=
  Array.size_modify

theorem content_modifyContent_self {number : Nat} (h : number < t.stored.size)
    (f : ByteArray → ByteArray) :
    (t.modifyContent number f).content number = f (t.content number) := by
  simp [content, modifyContent, h, Array.getElem_modify_self]

theorem stored_modifyContent_of_ne {number other : Nat} (h : other ≠ number)
    (f : ByteArray → ByteArray) :
    (t.modifyContent number f).stored[other]? = t.stored[other]? := by
  simp [modifyContent, Array.getElem?_modify, Ne.symm h]

theorem growsTo_modifyContent (t : FileTree) (number : Nat) (f : ByteArray → ByteArray) :
    t.GrowsTo (t.modifyContent number f) :=
  ⟨rfl, by simp, fun _ _ h => h, fun _ _ h => .inl h⟩

theorem node?_create_self (free : t.node? loc = none) (file : StoredFile) :
    (t.create loc file).node? loc = some (.file t.stored.size) :=
  node?_put_self (ne_nil_of_free free)

theorem node?_create_of_ne {place : Location} (h : place ≠ loc) (file : StoredFile) :
    (t.create loc file).node? place = t.node? place :=
  node?_put_of_ne h

theorem sound_modifyContent (sound : t.Sound) (number : Nat) (f : ByteArray → ByteArray) :
    (t.modifyContent number f).Sound where
  numbered loc node number there hnumber := by
    rw [size_stored_modifyContent]
    exact sound.numbered loc node number there hnumber
  apart := sound.apart

theorem sound_create (sound : t.Sound) (free : t.node? loc = none) (file : StoredFile) :
    (t.create loc file).Sound := by
  have size : (t.create loc file).stored.size = t.stored.size + 1 := Array.size_push _
  have old {place node} (there : (t.create loc file).node? place = some node)
      (other : node ≠ .file t.stored.size) : t.node? place = some node := by
    by_cases here : place = loc
    · subst here
      rw [node?_create_self free] at there
      exact absurd (Option.some.inj there).symm other
    · rwa [node?_create_of_ne here] at there
  constructor
  · intro place node number there hnumber
    rw [size]
    by_cases new : node = .file t.stored.size
    · subst new
      cases hnumber
      exact Nat.lt_succ_self _
    · exact Nat.lt_succ_of_lt (sound.numbered place node number (old there new) hnumber)
  · intro place place' number there there'
    have channel := old there' nofun
    by_cases new : number = t.stored.size
    · have inside := sound.numbered place' _ number channel rfl
      omega
    · exact sound.apart place place' number (old there (by simpa using new)) channel

namespace Writes

theorem growsTo (h : t.Writes path content t') : t.GrowsTo t' := by
  cases h with
  | rewritten | appended => exact growsTo_modifyContent t _ _
  | created located free => exact .put free (by simp) (.inr ⟨t.stored.size, rfl, Nat.le_refl _⟩)
  | swallowed => exact .refl t

theorem sound (h : t.Writes path content t') (sound : t.Sound) : t'.Sound := by
  cases h with
  | rewritten | appended => exact sound_modifyContent sound _ _
  | created located free => exact sound_create sound free _
  | swallowed => exact sound

theorem opens (h : t.Writes path content t') (bare : (Route.ofText path).slashAtEnd = false) :
    (∃ number, t'.openFile path = .ok (.file number)) ∨ t'.openFile path = .ok .device := by
  have grows := h.growsTo
  cases h with
  | rewritten located there =>
    exact .inl ⟨_, openFile_of_file (grows.locatePath located) bare there⟩
  | created located free =>
    exact .inl ⟨_, openFile_of_file (grows.locatePath located) bare (node?_create_self free _)⟩
  | appended located there =>
    exact .inr (openFile_of_device (grows.locatePath located) bare there nofun)
  | swallowed located there present =>
    exact .inr (openFile_of_device located bare there present)

theorem content_eq (h : t.Writes path content t') (sound : t.Sound) {number : Nat}
    (opens : t'.openFile path = .ok (.file number)) : t'.content number = content := by
  obtain ⟨place, located', there'⟩ := node?_of_openFile opens
  have grows := h.growsTo
  cases h with
  | @rewritten loc old located there =>
    obtain rfl := Except.ok.inj ((grows.locatePath located).symm.trans located')
    obtain ⟨⟩ := Option.some.inj (there.symm.trans there')
    exact content_modifyContent_self (sound.numbered _ _ _ there rfl) _
  | @created loc located free =>
    obtain rfl := Except.ok.inj ((grows.locatePath located).symm.trans located')
    obtain ⟨⟩ := Option.some.inj ((node?_create_self free _).symm.trans there')
    simp [FileTree.content, create]
  | appended located there | swallowed located there =>
    obtain rfl := Except.ok.inj ((grows.locatePath located).symm.trans located')
    cases Option.some.inj (there.symm.trans there')

theorem frame (h : t.Writes path content t') {number : Nat} (old : number < t.stored.size)
    (unreached : ¬ t'.Reaches path number) : t'.stored[number]? = t.stored[number]? := by
  have grows := h.growsTo
  cases h with
  | rewritten located there | appended located there =>
    refine stored_modifyContent_of_ne ?_ _
    rintro rfl
    exact unreached ⟨_, _, grows.locatePath located, there, rfl⟩
  | created located free =>
    exact (Array.getElem?_push_lt old).trans (Array.getElem?_eq_getElem old).symm
  | swallowed => rfl

theorem added (h : t.Writes path content t') (bare : (Route.ofText path).slashAtEnd = false)
    {place : Location} {node : FileNode} (there : t'.node? place = some node) :
    t.node? place = some node ∨ ∃ number, node = .file number ∧ t.stored.size ≤ number ∧
      t'.openFile path = .ok (.file number) := by
  have grows := h.growsTo
  cases h with
  | rewritten | appended | swallowed => exact .inl there
  | @created loc located free =>
    by_cases here : place = loc
    · subst here
      have created := node?_create_self free { content := content }
      obtain rfl := Option.some.inj (created.symm.trans there)
      exact .inr ⟨_, rfl, Nat.le_refl _, openFile_of_file (grows.locatePath located) bare created⟩
    · exact .inl ((node?_create_of_ne here _).symm.trans there)

end Writes

theorem sound_of_writeFile (sound : t.Sound) (h : t.writeFile path content = .ok t') : t'.Sound :=
  (writes_of_writeFile h).2.sound sound

/-- Trees that are built up file by file are sound. -/
theorem sound_addFile (sound : t.Sound) (path : String) (content : List UInt8) :
    (t.addFile path content).Sound := by
  unfold addFile
  cases parent : (Route.ofText path).parent? with
  | none =>
    dsimp only
    split
    · exact sound
    · rename_i written
      exact sound_of_writeFile sound written
  | some directory =>
    have paved := (addsDirectories_createDirectories (t := t) parent).sound sound
    dsimp only
    split
    · exact paved
    · rename_i written
      exact sound_of_writeFile paved written

/-! ## One text after the other -/

/-- What is known of a tree in which texts have been written to paths, one after the other.  Each
entry is a path with its text. -/
structure Wrote (written : List (String × String)) (t t' : FileTree) : Prop where
  grows : t.GrowsTo t'
  sound : t'.Sound
  added : ∀ loc node, t'.node? loc = some node → t.node? loc = some node ∨
    ∃ entry ∈ written, (node = .directory ∧ t'.LiesOver entry.1 loc) ∨
      ∃ number, node = .file number ∧ t.stored.size ≤ number ∧
        t'.openFile entry.1 = .ok (.file number)
  opens : ∀ entry ∈ written,
    (∃ number, t'.openFile entry.1 = .ok (.file number)) ∨ t'.openFile entry.1 = .ok .device
  /-- The last text that was written to a file is what it holds. -/
  holds : ∀ (before after : List (String × String)) (path text : String) (number : Nat),
    written = before ++ (path, text) :: after → t'.openFile path = .ok (.file number) →
    (∀ later ∈ after, t'.openFile later.1 ≠ .ok (.file number)) →
    t'.content number = bytesOf (Text.encode text.toList)
  /-- A file to which nothing was written is as it was. -/
  frame : ∀ number < t.stored.size, (∀ entry ∈ written, ¬ t'.Reaches entry.1 number) →
    t'.stored[number]? = t.stored[number]?

/-- What is kept for a file that has a name comes there by paths to that file, not through a
channel. -/
theorem Sound.openFile_of_reaches (sound : t.Sound) {number : Nat}
    (named : t.node? loc = some (.file number)) (reaches : t.Reaches path number) {opened : Opened}
    (opens : t.openFile path = .ok opened) : t.openFile path = .ok (.file number) := by
  obtain ⟨place, node, located, there, hnumber⟩ := reaches
  have file : node = .file number := by
    cases node with
    | file other => rw [Option.some.inj hnumber]
    | directory | link => cases hnumber
    | device d =>
      cases d with
      | channel other =>
        obtain rfl := Option.some.inj hnumber
        exact absurd there (sound.apart loc place other named)
      | _ => cases hnumber
  rw [file] at there
  rw [opens, opened_of_file located there opens]

namespace Wrote

variable {written written' : List (String × String)}

theorem nil (sound : t.Sound) : t.Wrote [] t where
  grows := .refl t
  sound := sound
  added _ _ there := .inl there
  opens _ h := absurd h List.not_mem_nil
  holds before after path text number h := absurd h (by simp)
  frame _ _ _ := rfl

/-- A text that is written in a directory created for it. -/
theorem single (above : t.AddsDirectories path t') (bare : (Route.ofText path).slashAtEnd = false)
    (writes : t'.Writes path (bytesOf (Text.encode text.toList)) t'') (sound : t.Sound) :
    t.Wrote [(path, text)] t'' where
  grows := above.growsTo.trans writes.growsTo
  sound := writes.sound (above.sound sound)
  added loc node there := by
    rcases writes.added bare there with old | new
    · rcases above.added loc node old with older | ⟨directory, lies⟩
      · exact .inl older
      · exact .inr ⟨_, List.mem_singleton_self _, .inl ⟨directory, lies.of_growsTo writes.growsTo⟩⟩
    · rw [above.stored] at new
      exact .inr ⟨_, List.mem_singleton_self _, .inr new⟩
  opens entry hentry := by
    obtain rfl := List.mem_singleton.mp hentry
    exact writes.opens bare
  holds before after other said number h opens _ := by
    obtain ⟨rfl, heq⟩ | ⟨_, rfl, heq⟩ := List.cons_eq_append_iff.mp h
    · obtain ⟨⟨rfl, rfl⟩, rfl⟩ := by simpa using heq
      exact writes.content_eq (above.sound sound) opens
    · cases (List.append_eq_nil_iff.mp heq.symm).2
  frame number old unreached := by
    rw [← above.stored] at old ⊢
    exact writes.frame old (unreached _ (List.mem_singleton_self _))

theorem exists_openFile (h : t.Wrote written t') {entry : String × String}
    (hentry : entry ∈ written) : ∃ opened, t'.openFile entry.1 = .ok opened := by
  rcases h.opens entry hentry with ⟨number, opens⟩ | opens
  · exact ⟨.file number, opens⟩
  · exact ⟨.device, opens⟩

/-- What a file holds, it holds until something else is written to it. -/
theorem holds_through {before after : List (String × String)}
    (first : t.Wrote (before ++ (path, text) :: after) t') (second : t'.Wrote written' t'')
    {number : Nat} (opens : t''.openFile path = .ok (.file number))
    (last : ∀ later ∈ after ++ written', t''.openFile later.1 ≠ .ok (.file number)) :
    t''.content number = bytesOf (Text.encode text.toList) := by
  have opened : t'.openFile path = .ok (.file number) := by
    obtain ⟨opened, hopened⟩ :=
      first.exists_openFile (List.mem_append_right before (List.mem_cons_self (a := (path, text))))
    rw [hopened, ← second.grows.openFile hopened, opens]
  have holds : t'.content number = bytesOf (Text.encode text.toList) := by
    refine first.holds before after path text number rfl opened fun later hlater there => ?_
    exact last later (List.mem_append_left _ hlater) (second.grows.openFile there)
  obtain ⟨loc, -, there⟩ := node?_of_openFile opened
  -- A later text that reached the file would have to be written to it by name.
  have unreached : ∀ entry ∈ written', ¬ t''.Reaches entry.1 number := by
    intro entry hentry reaches
    refine last entry (List.mem_append_right _ hentry) ?_
    have named := second.grows.kept loc _ there
    obtain ⟨opened, hopened⟩ := second.exists_openFile hentry
    exact second.sound.openFile_of_reaches named reaches hopened
  have same := second.frame number (first.sound.numbered loc _ number there rfl) unreached
  rw [← holds, content, content, same]

theorem append (first : t.Wrote written t') (second : t'.Wrote written' t'') :
    t.Wrote (written ++ written') t'' where
  grows := first.grows.trans second.grows
  sound := second.sound
  added loc node there := by
    rcases second.added loc node there with old | ⟨entry, hentry, new⟩
    · rcases first.added loc node old with older | ⟨entry, hentry, new⟩
      · exact .inl older
      · refine .inr ⟨entry, List.mem_append_left _ hentry, ?_⟩
        rcases new with ⟨rfl, lies⟩ | ⟨number, rfl, fresh, opens⟩
        · exact .inl ⟨rfl, lies.of_growsTo second.grows⟩
        · exact .inr ⟨number, rfl, fresh, second.grows.openFile opens⟩
    · refine .inr ⟨entry, List.mem_append_right _ hentry, ?_⟩
      rcases new with new | ⟨number, rfl, fresh, opens⟩
      · exact .inl new
      · exact .inr ⟨number, rfl, Nat.le_trans first.grows.stored fresh, opens⟩
  opens entry hentry := by
    rcases List.mem_append.mp hentry with hentry | hentry
    · rcases first.opens entry hentry with ⟨number, opens⟩ | opens
      · exact .inl ⟨number, second.grows.openFile opens⟩
      · exact .inr (second.grows.openFile opens)
    · exact second.opens entry hentry
  holds before after path text number h opens last := by
    rcases List.append_eq_append_iff.mp h with ⟨between, -, heq⟩ | ⟨rest, rfl, heq⟩
    · exact second.holds between after path text number heq opens last
    cases rest with
    | nil => exact second.holds [] after path text number heq.symm opens last
    | cons entry rest =>
      obtain ⟨rfl, rfl⟩ := List.cons.inj heq
      exact first.holds_through second opens last
  frame number old unreached := by
    have later := second.frame number (Nat.lt_of_lt_of_le old first.grows.stored)
      fun entry hentry => unreached entry (List.mem_append_right _ hentry)
    rw [later]
    refine first.frame number old fun entry hentry reaches => ?_
    exact unreached entry (List.mem_append_left _ hentry) (reaches.of_growsTo second.grows)

end Wrote

end ProductLine.FileTree
