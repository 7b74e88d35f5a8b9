/- # Blocks — a source that stands still is its bytes

A file is read block by block while its lines are taken in, so that an engine
that writes to it meanwhile is noticed.  Mostly nobody does, and then the blocks
make no difference: the model is the one of all bytes at once, wherever the
blocks end (`Source.run_compileStream`).  A line that has begun in one block is
kept and goes on in the next one (`Text.byteLines_append`).

That a source stands still is a matter of the world in which it is read, which
engines act on.  It is said of those worlds in which `p` holds, and engines are
taken to keep `p`.
-/
import ProductLine.Project
import ProductLine.Proofs.Source.Effects
import ProductLine.Proofs.Text.Lines

namespace ProductLine

/-! ## Lines across blocks -/

/-- The lines that have ended in the front part are lines of the whole, and what follows them goes
on in the rest. -/
theorem Text.byteLines_append (front rest : List UInt8) : byteLines (front ++ rest) =
    (endedByteLines front).1 ++ byteLines ((endedByteLines front).2 ++ rest) := by
  induction hlength : front.length using Nat.strongRecOn generalizing front with
  | ind length ih =>
    by_cases feed : (0x0A : UInt8) ∈ front
    · obtain ⟨piece, more, rfl, clean⟩ := List.eq_append_cons_of_mem feed
      have shorter : more.length < length := by
        rw [← hlength, List.length_append, List.length_cons]
        omega
      have nonempty := List.splitOn_ne_nil (0x0A : UInt8) more
      have ended : endedByteLines (piece ++ 0x0A :: more) =
          (dropFinal 0x0D piece :: (endedByteLines more).1, (endedByteLines more).2) := by
        unfold endedByteLines
        rw [List.splitOn_append_cons_self_of_not_mem clean]
        dsimp only
        rw [List.dropLast_cons_of_ne_nil nonempty, List.map_cons, List.getLastD_eq_getLast?,
          List.getLastD_eq_getLast?, List.getLast?_cons_of_ne_nil nonempty]
      rw [ended, List.append_assoc, List.cons_append, byteLines, linesBy_append_cons clean,
        ← byteLines, ih more.length shorter more rfl]
      rfl
    · have whole : endedByteLines front = ([], front) := by
        unfold endedByteLines
        rw [List.splitOn_eq_singleton feed]
        rfl
      rw [whole, List.nil_append]

/-- Lines are taken in one part after the other. -/
theorem Compilation.feedLines_append {m : Type → Type} [Monad m] [LawfulMonad m]
    (c : Compilation m) (number : Nat) (lines more : List (Except FileFault (List Char))) :
    c.feedLines number (lines ++ more) = (do
      match ← c.feedLines number lines with
      | .error fault => return .error fault
      | .ok c => c.feedLines (number + lines.length) more) := by
  induction lines generalizing c number with
  | nil => simp [feedLines]
  | cons line lines ih =>
    cases line with
    | error fault => simp [feedLines]
    | ok line =>
      rw [List.cons_append, feedLines, feedLines, bind_assoc]
      refine bind_congr fun outcome => ?_
      obtain ⟨_ | _, c'⟩ := outcome
      · simp
      · simp only [ih, List.length_cons]
        rw [Nat.add_right_comm, Nat.add_assoc]

/-! ## Reading a source that stands still -/

namespace Source

variable {σ : Type} {p : σ → Prop} {read : Nat → StateM σ (Except FileFault (List UInt8))}
  {bytes : List UInt8} {engine : Engine (StateM σ)}

/-- In the worlds of which `p` holds, reading gives the bytes, block by block, and leaves the world
as it is. -/
def Gives (p : σ → Prop) (read : Nat → StateM σ (Except FileFault (List UInt8)))
    (bytes : List UInt8) : Prop :=
  ∀ world, p world → ∀ offset, ∃ block, (read offset).run world = (.ok block, world) ∧
    block <+: bytes.drop offset ∧ (block = [] → bytes.drop offset = [])

/-- The result of a run that has come to its end. -/
def modelOf (result : Except SourceFault (Compilation (StateM σ))) : Except SourceFault Model :=
  result.map fun c => c.draft.model

/-- At the end of the source, nothing is left but a model. -/
theorem run_compileRest_at_end (gives : Gives p read bytes) {world : σ} (hp : p world)
    (c : Compilation (StateM σ)) (rounds number : Nat) {offset : Nat}
    (finished : bytes.drop offset = []) :
    (compileRest read (rounds + 1) c number offset []).run world =
      (.ok c.draft.model, world) := by
  obtain ⟨block, reads, inside, -⟩ := gives world hp offset
  rw [finished] at inside
  obtain rfl := List.prefix_nil.mp inside
  rw [compileRest, StateT.run_bind, reads]
  rfl

/-- Some lines are taken in, and what comes of the others is left to `next`. -/
theorem run_feedLines_then
    (keeps : ∀ request world, p world → p ((engine.reply request).run world).2)
    {c : Compilation (StateM σ)} (same : c.draft.normalizer.engine = engine) (number : Nat)
    (lines more : List (Except FileFault (List Char)))
    {next : Except SourceFault (Compilation (StateM σ)) → StateM σ (Except SourceFault Model)}
    (stops : ∀ fault, next (.error fault) = pure (.error fault))
    (goesOn : ∀ c' world', c'.draft.normalizer.engine = engine → p world' →
      (next (.ok c')).run world' =
        (modelOf <$> c'.feedLines (number + lines.length) more).run world')
    {world : σ} (hp : p world) : (c.feedLines number lines >>= next).run world =
      (modelOf <$> c.feedLines number (lines ++ more)).run world := by
  obtain ⟨leads, kept⟩ := Compilation.moves_feedLines same number lines world
  have hp' := leads.keeps keeps hp
  rw [Compilation.feedLines_append, map_bind, StateT.run_bind, StateT.run_bind]
  generalize (c.feedLines number lines).run world = run at kept hp' ⊢
  obtain ⟨fault | c', world'⟩ := run
  · show (next (.error fault)).run world' = _
    rw [stops]
    rfl
  · exact goesOn c' world' (kept c' rfl) hp'

/-- What is left of a source is taken in as the lines that are left, whatever its blocks are. -/
theorem run_compileRest (gives : Gives p read bytes)
    (keeps : ∀ request world, p world → p ((engine.reply request).run world).2)
    {c : Compilation (StateM σ)} (same : c.draft.normalizer.engine = engine) {rounds : Nat}
    (number : Nat) {offset : Nat} (unfinished : List UInt8)
    (enough : (bytes.drop offset).length + 2 ≤ rounds) {world : σ} (hp : p world) :
    (compileRest read rounds c number offset unfinished).run world =
      (modelOf <$> c.feedLines number
        ((Text.byteLines (unfinished ++ bytes.drop offset)).map decodeLine)).run world := by
  induction rounds generalizing c number offset unfinished world with
  | zero => omega
  | succ rounds ih =>
    obtain ⟨block, reads, ⟨rest, hrest⟩, ends⟩ := gives world hp offset
    rw [compileRest, StateT.run_bind, reads]
    show StateT.run (if block.isEmpty && unfinished.isEmpty then _ else _) world = _
    cases block with
    | nil =>
      have finished := ends rfl
      cases unfinished with
      | nil =>
        rw [finished]
        rfl
      | cons byte unfinished =>
        obtain ⟨rounds, rfl⟩ : ∃ fewer, rounds = fewer + 1 := ⟨rounds - 1, by omega⟩
        rw [finished, List.append_nil, ← List.append_nil ((Text.byteLines _).map decodeLine)]
        refine run_feedLines_then keeps same number _ [] (fun _ => rfl) ?_ hp
        intro c' world' _ hp'
        exact run_compileRest_at_end gives hp' c' rounds _ finished
    | cons byte block =>
      have later : bytes.drop (offset + (byte :: block).length) = rest := by
        rw [← List.drop_drop, ← hrest, List.drop_left]
      have fewer : rest.length + 2 ≤ rounds := by
        rw [← hrest, List.length_append, List.length_cons] at enough
        omega
      rw [← hrest, ← List.append_assoc, Text.byteLines_append, List.map_append]
      refine run_feedLines_then keeps same number _ _ (fun _ => rfl) ?_ hp
      intro c' world' same' hp'
      rw [List.length_map (f := decodeLine), ← later]
      exact ih same' _ _ (by rwa [later]) hp'

/-- Of a source that stands still, reading it block by block makes the model of its bytes. -/
theorem run_compileStream {n : Normalizer (StateM σ)} (name : String) (gives : Gives p read bytes)
    (keeps : ∀ request world, p world → p ((n.engine.reply request).run world).2)
    (short : bytes.length + 2 ≤ maxRounds) {world : σ} (hp : p world) :
    (compileStream name n read).run world = (compileBytes name n bytes).run world := by
  rw [compileStream, run_compileRest gives keeps rfl 1 [] (by rwa [List.drop_zero]) hp,
    List.nil_append, List.drop_zero, compileBytes, compileLines, map_eq_pure_bind]
  rfl

/-- A file that no engine writes to is compiled as the bytes that it holds. -/
theorem run_compileFile {path : String} {n : Normalizer (StateM FileTree)} {t : FileTree}
    {number : Nat} (opens : t.openFile path = .ok (.file number))
    (still : ∀ request t', t'.content number = t.content number →
      ((n.engine.reply request).run t').2.content number = t.content number)
    (short : (t.content number).data.toList.length + 2 ≤ maxRounds) :
    (compileFile path n).run t =
      (compileBytes (Path.fileStem path) n (t.content number).data.toList).run t := by
  have gives : Gives (fun t' : FileTree => t'.content number = t.content number)
      (FileTree.readBlockM (.file number)) (t.content number).data.toList := by
    intro t' same offset
    refine ⟨_, rfl, ?_⟩
    rw [same, ByteArray.data_extract, Array.toList_extract, List.extract_eq_take_drop,
      Nat.add_sub_cancel_left]
    refine ⟨List.take_prefix _ _, fun empty => ?_⟩
    exact (List.take_eq_nil_iff.mp empty).resolve_left (by decide)
  have opened : (FileStore.openFile path : StateM FileTree _).run t =
      (.ok (Opened.file number), t) := by
    show (t.openFile path, t) = _
    rw [opens]
  rw [compileFile, StateT.run_bind, opened]
  exact run_compileStream (Path.fileStem path) gives still short rfl

end Source

end ProductLine
