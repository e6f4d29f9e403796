import BuildTrace.Command.Line
import BuildTrace.Proofs.Scan.Course
import BuildTrace.Proofs.Scan.Pull
import Mathlib.Data.List.Basic
import Mathlib.Data.List.TakeWhile

/-!
# The chunks of a scan

A scan that nobody cancels reads full chunks and at last one that is not full. It asks whether it
was cancelled at both borders of each chunk, and hands out the items of the chunks before the first
one at whose borders a cancellation is noticed. So the chunks cannot be seen in the items of a scan
that is not cancelled, and a cancelled one has handed out whole chunks.

## Main definitions

* `LineScanner.recognize`: the items of lines that are read one after the other;
* `LineScanner.Shows`: a recognizer that depends on a view of its surroundings only;
* `Scan.Chunk` and `Scan.chunks`: the chunks of a scan, with the surroundings at their borders.

## Main results

* `Scan.items_spec`: a scan hands out the chunks before the first cancellation it notices;
* `Scan.pulls_uncancelled`: a scan that is not cancelled gives the items of its lines, whatever the
  size of its chunks;
* `Scan.pulls_chunks`: a scan gives whole chunks only, and is complete or cancelled.
-/

namespace BuildTrace

variable {ω υ σ ι : Type}

/-! ## Lines -/

namespace LineScanner

/-- All items of the lines: those found line by line, and those that are complete at the end. -/
def recognize (scanner : LineScanner ω σ ι) (lines : List String) (state : σ) (w : ω) : List ι :=
  let (found, state, _) := scanner.scanLines lines state w
  found ++ scanner.finish state

/-- Lines can be read in two parts. -/
theorem scanLines_append (scanner : LineScanner ω σ ι) (lines others : List String) (state : σ)
    (w : ω) :
    scanner.scanLines (lines ++ others) state w =
      let (found, state, w) := scanner.scanLines lines state w
      let (more, state, w) := scanner.scanLines others state w
      (found ++ more, state, w) := by
  induction lines generalizing state w with
  | nil => rfl
  | cons line lines ih => simp only [List.cons_append, scanLines, ih, List.append_assoc]

/-- The recognizer depends on a view of its surroundings only, and finds in them what the other one
finds in the view. -/
structure Shows (view : ω → υ) (scanner : LineScanner ω σ ι) (shown : LineScanner υ σ ι) :
    Prop where
  /-- A line gives the same in the surroundings and in the view of them. -/
  line : ∀ line state w, shown.scanLine line state (view w)
    = Prod.map id (Prod.map id view) (scanner.scanLine line state w)
  /-- So does the end. -/
  finish : shown.finish = scanner.finish

/-- It recognizes the same as the other one. -/
theorem Shows.recognize_eq {view : ω → υ} {scanner : LineScanner ω σ ι} {shown : LineScanner υ σ ι}
    (h : Shows view scanner shown) (lines : List String) (state : σ) (w : ω) :
    shown.recognize lines state (view w) = scanner.recognize lines state w := by
  rw [recognize, recognize, LineScanner.scanLines_view h.line, h.finish]
  rfl

/-- A recognizer that has no use for its surroundings recognizes the same in all of them. -/
theorem recognize_ofPure (scanLine : String → σ → List ι × σ) (finish : σ → List ι)
    (lines : List String) (state : σ) (w : ω) :
    (LineScanner.ofPure scanLine finish).recognize lines state w
      = (LineScanner.ofPure scanLine finish : LineScanner Unit σ ι).recognize lines state () := by
  have hshows : LineScanner.Shows (fun _ : ω => ()) (.ofPure scanLine finish)
      (.ofPure scanLine finish) := ⟨fun _ _ _ => rfl, rfl⟩
  exact (hshows.recognize_eq lines state w).symm

end LineScanner

namespace Scan

variable {scanner : LineScanner ω σ ι} {isCancelled : ω → Bool} {chunkSize : Nat}
  {receive : ι → ω → ω}

/-! ## Chunks -/

/-- A chunk of a scan, with the surroundings at its borders. -/
structure Chunk (ω ι : Type) where
  /-- The surroundings when the chunk is to be read. -/
  before : ω
  /-- The items found in the chunk. -/
  items : List ι
  /-- The surroundings when the chunk has been read. -/
  behind : ω

/-- A cancellation is noticed at a border of the chunk. -/
def Chunk.notices (isCancelled : ω → Bool) (chunk : Chunk ω ι) : Bool :=
  isCancelled chunk.before || isCancelled chunk.behind

/-- The chunks of a scan that nobody cancels: as many full ones as are asked for, and a last one
with the other lines and the items that are complete only at the end. The items of a chunk are
received before the next one is read. -/
def chunks (scanner : LineScanner ω σ ι) (receive : ι → ω → ω) (size : Nat) :
    Nat → List String → σ → ω → List (Chunk ω ι)
  | 0, lines, state, w =>
    let (found, state, behind) := scanner.scanLines lines state w
    [⟨w, found ++ scanner.finish state, behind⟩]
  | full + 1, lines, state, w =>
    let (found, state, behind) := scanner.scanLines (lines.take size) state w
    ⟨w, found, behind⟩ :: chunks scanner receive size full (lines.drop size) state
      (found.foldl (fun w item => receive item w) behind)

/-- How a scan ends that has the given chunks and came to an end in the surroundings `w`. -/
inductive Ends (isCancelled : ω → Bool) (chunks : List (Chunk ω ι)) (lines : Nat) :
    Scan σ ι → ω → Prop where
  /-- No cancellation was noticed. -/
  | finished {after : Scan σ ι} {w : ω} : chunks.all (!·.notices isCancelled) = true →
      after.status = .finished → after.ready = [] → after.linesScanned = lines →
      Ends isCancelled chunks lines after w
  /-- A cancellation was noticed. -/
  | cancelled {after : Scan σ ι} {w : ω} : chunks.any (·.notices isCancelled) = true →
      after.status = .cancelled → after.ready = [] → isCancelled w = true →
      Ends isCancelled chunks lines after w

/-- A chunk at the borders of which nothing is noticed makes no difference to the end. -/
theorem Ends.cons {chunk : Chunk ω ι} {chunks : List (Chunk ω ι)} {lines : Nat} {after : Scan σ ι}
    {w : ω} (hchunk : chunk.notices isCancelled = false)
    (h : Ends isCancelled chunks lines after w) :
    Ends isCancelled (chunk :: chunks) lines after w := by
  cases h with
  | finished hall hstatus hready hlines =>
    exact .finished (by simpa [hchunk] using hall) hstatus hready hlines
  | cancelled hany hstatus hready hcancelled =>
    exact .cancelled (by simpa [hchunk] using hany) hstatus hready hcancelled

/-- What is ready goes before all others. -/
theorem items_ready (scan : Scan σ ι) (w : ω) :
    items scanner isCancelled chunkSize receive scan w =
      let (more, last) := items scanner isCancelled chunkSize receive { scan with ready := [] }
        (scan.ready.foldl (fun w item => receive item w) w)
      (scan.ready ++ more, last) := by
  rw [items_eq scan, items_eq { scan with ready := [] }]
  by_cases hrunning : scan.status = .running
  · simp only [hrunning, if_true, List.foldl_nil, List.nil_append]
  · simp only [hrunning, if_false, List.append_nil, List.foldl_nil]

/-- A scan that is over and has nothing ready hands out nothing. -/
theorem items_of_over {scan : Scan σ ι} (hstatus : scan.status ≠ .running)
    (hready : scan.ready = []) (w : ω) :
    items scanner isCancelled chunkSize receive scan w = ([], scan, w) := by
  have hsame : { scan with ready := [] } = scan := by rw [← hready]
  rw [items_eq, if_neg hstatus, hsame, hready]
  rfl

/-- Nor does anything come out of it. -/
theorem next_of_over {scan : Scan σ ι} (hstatus : scan.status ≠ .running) (hready : scan.ready = [])
    (w : ω) : next scanner isCancelled chunkSize scan w = (none, scan, w) := by
  rw [next_eq, hready]
  exact if_neg hstatus

section Borders

variable (lines : List String) (state : σ) (count : Nat) (w : ω)

/-- A chunk at a border of which a cancellation is noticed is dropped. -/
theorem nextChunk_of_notices (h : (isCancelled w ||
      isCancelled (scanner.scanLines (lines.take (max chunkSize 1)) state w).2.2) = true) :
    let run := nextChunk scanner isCancelled chunkSize
      (⟨lines, state, [], .running, count⟩ : Scan σ ι) w
    run.1.status = .cancelled ∧ run.1.ready = [] ∧ isCancelled run.2 = true := by
  by_cases hbefore : isCancelled w = true
  · simp [nextChunk, hbefore]
  · have hbehind : isCancelled (scanner.scanLines (lines.take (max chunkSize 1)) state w).2.2
        = true := by
      simpa [hbefore] using h
    simp [nextChunk, hbefore, hbehind]

/-- Any other chunk is released. -/
theorem nextChunk_of_released (h : (isCancelled w ||
      isCancelled (scanner.scanLines (lines.take (max chunkSize 1)) state w).2.2) = false) :
    nextChunk scanner isCancelled chunkSize
        (⟨lines, state, [], .running, count⟩ : Scan σ ι) w =
      let size := max chunkSize 1
      let (found, next, behind) := scanner.scanLines (lines.take size) state w
      if lines.length < size then
        (⟨[], next, found ++ scanner.finish next, .finished, count + lines.length⟩, behind)
      else (⟨lines.drop size, next, found, .running, count + size⟩, behind) := by
  obtain ⟨hbefore, hbehind⟩ := Bool.or_eq_false_iff.mp h
  simp only [nextChunk, hbefore, hbehind]
  by_cases hlast : lines.length < max chunkSize 1
  · have htake : lines.take (max chunkSize 1) = lines := List.take_of_length_le (by omega)
    have hdrop : lines.drop (max chunkSize 1) = [] := List.drop_of_length_le (by omega)
    simp [hlast, htake, hdrop]
  · have hlength : (lines.take (max chunkSize 1)).length = max chunkSize 1 := by
      rw [List.length_take]
      omega
    simp [hlast, hlength]

/-- If it is full, its items come first, and the scan goes on behind it. -/
theorem items_of_full (h : (isCancelled w ||
      isCancelled (scanner.scanLines (lines.take (max chunkSize 1)) state w).2.2) = false)
    (hfull : ¬ lines.length < max chunkSize 1) :
    items scanner isCancelled chunkSize receive ⟨lines, state, [], .running, count⟩ w =
      let size := max chunkSize 1
      let (found, next, behind) := scanner.scanLines (lines.take size) state w
      let (more, last) := items scanner isCancelled chunkSize receive
        ⟨lines.drop size, next, [], .running, count + size⟩
        (found.foldl (fun w item => receive item w) behind)
      (found ++ more, last) := by
  have hnext := nextChunk_of_released lines state count w h
  simp only [hfull, if_false] at hnext
  rw [items_eq]
  simp only [if_true, List.foldl_nil, List.nil_append, hnext]
  rw [items_ready]

/-- If it is not, its items come with those that are complete at the end, and nothing follows. -/
theorem items_of_last (h : (isCancelled w ||
      isCancelled (scanner.scanLines (lines.take (max chunkSize 1)) state w).2.2) = false)
    (hlast : lines.length < max chunkSize 1) :
    items scanner isCancelled chunkSize receive ⟨lines, state, [], .running, count⟩ w =
      let (found, next, behind) := scanner.scanLines lines state w
      let found := found ++ scanner.finish next
      (found, ⟨[], next, [], .finished, count + lines.length⟩,
        found.foldl (fun w item => receive item w) behind) := by
  have hnext := nextChunk_of_released lines state count w h
  have htake : lines.take (max chunkSize 1) = lines := List.take_of_length_le (by omega)
  have hover : Status.finished ≠ .running := nofun
  simp only [htake, hlast, if_true] at hnext
  rw [items_eq]
  simp only [if_true, List.foldl_nil, List.nil_append, hnext]
  rw [items_ready]
  dsimp only
  rw [items_of_over hover rfl]
  simp only [List.append_nil]

/-- The first chunk has the surroundings at hand before it, and those behind its lines. -/
theorem chunks_eq_cons (full : Nat) (hfull : lines.length / max chunkSize 1 = full) :
    ∃ chunk rest, chunks scanner receive (max chunkSize 1) full lines state w = chunk :: rest ∧
      chunk.notices isCancelled = (isCancelled w ||
        isCancelled (scanner.scanLines (lines.take (max chunkSize 1)) state w).2.2) := by
  cases full with
  | zero =>
    have hlast : lines.length < max chunkSize 1 := by
      rwa [Nat.div_eq_zero_iff_lt (by omega)] at hfull
    rw [List.take_of_length_le (by omega)]
    exact ⟨_, _, rfl, rfl⟩
  | succ full => exact ⟨_, _, rfl, rfl⟩

/-- A scan that notices a cancellation at the first chunk hands out nothing. -/
theorem items_of_notices (full : Nat) (hfull : lines.length / max chunkSize 1 = full)
    (h : (isCancelled w ||
      isCancelled (scanner.scanLines (lines.take (max chunkSize 1)) state w).2.2) = true) :
    let run := items scanner isCancelled chunkSize receive ⟨lines, state, [], .running, count⟩ w
    let chunks := chunks scanner receive (max chunkSize 1) full lines state w
    run.1 = (chunks.takeWhile (!·.notices isCancelled)).flatMap Chunk.items ∧
      Ends isCancelled chunks (count + lines.length) run.2.1 run.2.2 := by
  obtain ⟨chunk, rest, hchunks, hnotices⟩ : ∃ chunk rest,
      chunks scanner receive (max chunkSize 1) full lines state w = chunk :: rest ∧
        chunk.notices isCancelled = _ := chunks_eq_cons lines state w full hfull
  obtain ⟨hstatus, hready, hcancelled⟩ := nextChunk_of_notices lines state count w h
  rw [h] at hnotices
  have hover : (nextChunk scanner isCancelled chunkSize
      (⟨lines, state, [], .running, count⟩ : Scan σ ι) w).1.status ≠ .running := by
    rw [hstatus]
    exact nofun
  rw [items_eq]
  simp only [if_true, List.foldl_nil, List.nil_append, hchunks, List.takeWhile_cons, hnotices]
  rw [items_of_over hover hready]
  exact ⟨rfl, .cancelled (by simp [hnotices]) hstatus hready hcancelled⟩

end Borders

/-- A scan hands out the items of the chunks before the first one at whose borders it notices that
it was cancelled. -/
theorem items_spec (full count : Nat) (lines : List String) (state : σ) (w : ω)
    (hfull : lines.length / max chunkSize 1 = full) :
    let run := items scanner isCancelled chunkSize receive ⟨lines, state, [], .running, count⟩ w
    let chunks := chunks scanner receive (max chunkSize 1) full lines state w
    run.1 = (chunks.takeWhile (!·.notices isCancelled)).flatMap Chunk.items ∧
      Ends isCancelled chunks (count + lines.length) run.2.1 run.2.2 := by
  -- The induction is on the full chunks that are still to come.
  induction full generalizing lines state w count with
  | zero =>
    have hlast : lines.length < max chunkSize 1 := by
      rwa [Nat.div_eq_zero_iff_lt (by omega)] at hfull
    cases hborders : isCancelled w ||
      isCancelled (scanner.scanLines (lines.take (max chunkSize 1)) state w).2.2 with
    | true => exact items_of_notices lines state count w 0 hfull hborders
    | false =>
      -- The last chunk is released, and nothing follows.
      rw [items_of_last lines state count w hborders hlast]
      rw [List.take_of_length_le (by omega)] at hborders
      have hnotices : ∀ items : List ι, Chunk.notices isCancelled
          ⟨w, items, (scanner.scanLines lines state w).2.2⟩ = false := fun _ => hborders
      simp only [chunks, List.takeWhile_cons, hnotices, Bool.not_false, if_true,
        List.takeWhile_nil, List.flatMap_cons, List.flatMap_nil, List.append_nil, true_and]
      exact .finished (by simp [hnotices]) rfl rfl rfl
  | succ full ih =>
    have hfirst : ¬ lines.length < max chunkSize 1 := by
      intro hlast
      rw [Nat.div_eq_of_lt hlast] at hfull
      cases hfull
    cases hborders : isCancelled w ||
      isCancelled (scanner.scanLines (lines.take (max chunkSize 1)) state w).2.2 with
    | true => exact items_of_notices lines state count w (full + 1) hfull hborders
    | false =>
      -- The chunk is released, and the scan goes on behind it.
      rw [items_of_full lines state count w hborders hfirst]
      have hrest : (lines.drop (max chunkSize 1)).length / max chunkSize 1 = full := by
        rw [Nat.div_eq_sub_div (by omega) (by omega)] at hfull
        rw [List.length_drop]
        exact Nat.succ.inj hfull
      have hcount : count + max chunkSize 1 + (lines.drop (max chunkSize 1)).length
          = count + lines.length := by
        rw [List.length_drop]
        omega
      obtain ⟨hitems, hends⟩ := ih (count + max chunkSize 1) (lines.drop (max chunkSize 1))
        (scanner.scanLines (lines.take (max chunkSize 1)) state w).2.1 _ hrest
      rw [hcount] at hends
      have hnotices : ∀ items : List ι, Chunk.notices isCancelled ⟨w, items,
          (scanner.scanLines (lines.take (max chunkSize 1)) state w).2.2⟩ = false :=
        fun _ => hborders
      simp only [chunks, List.takeWhile_cons, hnotices, Bool.not_false, if_true,
        List.flatMap_cons]
      exact ⟨congrArg _ hitems, hends.cons (hnotices _)⟩

/-! ## Whole traces -/

/-- The lines of a trace. -/
def linesOf (trace : String) : List String :=
  (Text.lines trace.toList).map String.ofList

/-- Pulled to its end, the scan of a trace gives the chunks before the first cancellation that it
notices. -/
theorem pulls_start (scanner : LineScanner ω σ ι) (isCancelled : ω → Bool) (chunkSize : Nat)
    (receive : ι → ω → ω) (trace : String) (state : σ) (w : ω) :
    let lines := linesOf trace
    let chunks := chunks scanner receive (max chunkSize 1) (lines.length / max chunkSize 1) lines
      state w
    ∃ items after w',
      (∀ result, Pulls scanner isCancelled chunkSize receive (start trace state) w result ↔
        result = (items, after, w')) ∧
      items = (chunks.takeWhile (!·.notices isCancelled)).flatMap Chunk.items ∧
      Ends isCancelled chunks lines.length after w' := by
  have hspec : (items scanner isCancelled chunkSize receive (start trace state) w).1 = _ ∧ _ :=
    items_spec _ 0 (linesOf trace) state w rfl
  obtain ⟨hitems, hends⟩ := hspec
  rw [Nat.zero_add] at hends
  exact ⟨_, _, _, fun result => pulls_iff, hitems, hends⟩

/-- The items of all chunks are those of the lines. -/
theorem flatMap_chunks (size full : Nat) (lines : List String) (state : σ) (w : ω) :
    (chunks scanner (fun _ w => w) size full lines state w).flatMap Chunk.items
      = scanner.recognize lines state w := by
  induction full generalizing lines state w with
  | zero => simp [chunks, LineScanner.recognize]
  | succ full ih =>
    have hparts := LineScanner.scanLines_append scanner (lines.take size) (lines.drop size) state w
    rw [List.take_append_drop] at hparts
    -- A receiver that does nothing leaves the surroundings as the recognizer left them.
    simp only [chunks, List.flatMap_cons, ih, List.foldl_fixed, LineScanner.recognize, hparts,
      List.append_assoc]

/-- Asked for all items at once, a scan gives those of its lines, unless it notices a cancellation
at a border of a chunk. -/
theorem complete?_eq (isCancelled : ω → Bool) (chunkSize : Nat) (trace : String) (state : σ)
    (w : ω) :
    let lines := linesOf trace
    let chunks := chunks scanner (fun _ w => w) (max chunkSize 1) (lines.length / max chunkSize 1)
      lines state w
    (complete? scanner isCancelled chunkSize trace state w).1 =
      if chunks.any (·.notices isCancelled) then none
      else some (scanner.recognize lines state w) := by
  intro lines chunks
  obtain ⟨items, after, w', hpulls, hitems, hends⟩ :=
    pulls_start scanner isCancelled chunkSize (fun _ w => w) trace state w
  have hrun : Scan.items scanner isCancelled chunkSize (fun _ w => w) (start trace state) w
      = (items, after, w') := (hpulls _).mp (pulls_items _ _)
  rw [complete?, hrun]
  cases hends with
  | finished hall hstatus =>
    have hnone : chunks.any (·.notices isCancelled) = false := by
      simpa [chunks, Bool.not_eq_true] using hall
    rw [List.takeWhile_eq_self_iff.mpr (List.all_eq_true.mp hall), flatMap_chunks] at hitems
    simp only [hstatus, hnone, hitems]
    rfl
  | cancelled hany hstatus =>
    have hsome : chunks.any (·.notices isCancelled) = true := hany
    simp only [hstatus, hsome]
    rfl

/-- What it gives then are the items of the lines. -/
theorem eq_recognize_of_complete? {isCancelled : ω → Bool} {trace : String} {state : σ} {w : ω}
    {found : List ι}
    (h : (complete? scanner isCancelled chunkSize trace state w).1 = some found) :
    found = scanner.recognize (linesOf trace) state w := by
  rw [complete?_eq] at h
  split at h
  · cases h
  · exact (Option.some.inj h).symm

/-- A recognizer that has no use for its surroundings does not change what is noticed at the borders
of the chunks. -/
theorem any_notices_ofPure (scanLine : String → σ → List ι × σ) (finish : σ → List ι)
    (size full : Nat) (lines : List String) (state : σ) (w : ω) :
    (chunks (.ofPure scanLine finish) (fun _ w => w) size full lines state w).any
      (·.notices isCancelled) = isCancelled w := by
  have hkept : ∀ lines state (w : ω),
      ((LineScanner.ofPure scanLine finish).scanLines lines state w).2.2 = w := fun lines state w =>
    (LineScanner.scanLines_rel (R := Eq) (fun _ => rfl) Eq.trans (fun _ _ _ => rfl) lines state
      w).symm
  induction full generalizing lines state with
  | zero => simp [chunks, Chunk.notices, hkept]
  | succ full ih =>
    simp only [chunks, List.any_cons, Chunk.notices, hkept, List.foldl_fixed]
    exact (congrArg _ (ih _ _)).trans (by simp)

/-- Asked for all items at once, such a recognizer gives those of the lines, unless the scan was
cancelled before it began. -/
theorem complete?_ofPure_eq (scanLine : String → σ → List ι × σ) (finish : σ → List ι)
    (isCancelled : ω → Bool) (chunkSize : Nat) (trace : String) (state : σ) (w : ω) :
    complete? (.ofPure scanLine finish) isCancelled chunkSize trace state w =
      (if isCancelled w then none
        else some ((LineScanner.ofPure scanLine finish).recognize (linesOf trace) state w), w) := by
  refine Prod.ext ?_ (complete?_ofPure scanLine finish isCancelled chunkSize trace state w)
  rw [complete?_eq, any_notices_ofPure]

section View

variable {υ : Type} {view : ω → υ} {shown : LineScanner υ σ ι}
  (h : LineScanner.Shows view scanner shown) (hreceive : ∀ item w, view (receive item w) = view w)

include h hreceive

/-- The items of the chunks are those found in the view, for the receiver changes nothing there. -/
theorem chunks_view (size full : Nat) (lines : List String) (state : σ) (w : ω) :
    (chunks scanner receive size full lines state w).map Chunk.items
      = (chunks shown (fun _ v => v) size full lines state (view w)).map Chunk.items := by
  induction full generalizing lines state w with
  | zero =>
    simp only [chunks, LineScanner.scanLines_view h.line, h.finish, Prod.map, id, List.map_cons,
      List.map_nil]
  | succ full ih =>
    have hsame : ∀ item w, (fun (_ : ι) (v : υ) => v) item (view w) = view (receive item w) :=
      fun item w => (hreceive item w).symm
    have hreceived : ∀ (items : List ι) (w : ω), items.foldl (fun v _ => v) (view w)
        = view (items.foldl (fun w item => receive item w) w) :=
      fun items w => Scan.foldl_receive_view hsame items w
    simp only [chunks, LineScanner.scanLines_view h.line, Prod.map, id, List.map_cons, hreceived,
      ih]

/-- So they are, one chunk after the other, those of the lines. -/
theorem flatMap_chunks_view (size full : Nat) (lines : List String) (state : σ) (w : ω) :
    (chunks scanner receive size full lines state w).flatMap Chunk.items
      = shown.recognize lines state (view w) := by
  rw [← flatMap_chunks size full, List.flatMap_def, List.flatMap_def, chunks_view h hreceive]

/-- If no cancellation is noticed, no chunk is dropped. -/
theorem flatMap_released {size full : Nat} {lines : List String} {state : σ} {w : ω}
    (hall : (chunks scanner receive size full lines state w).all (!·.notices isCancelled) = true) :
    ((chunks scanner receive size full lines state w).takeWhile
        (!·.notices isCancelled)).flatMap Chunk.items
      = shown.recognize lines state (view w) := by
  rw [List.takeWhile_eq_self_iff.mpr (List.all_eq_true.mp hall), flatMap_chunks_view h hreceive]

/-- A scan that is not cancelled hands out the items of its lines. -/
theorem items_of_ne_cancelled (isCancelled : ω → Bool) (chunkSize : Nat) (trace : String)
    (state : σ) (w : ω)
    (hne : (items scanner isCancelled chunkSize receive (start trace state) w).2.1.status
      ≠ .cancelled) :
    (items scanner isCancelled chunkSize receive (start trace state) w).1
      = shown.recognize (linesOf trace) state (view w) := by
  obtain ⟨found, after, w', hpulls, hfound, hends⟩ :=
    pulls_start scanner isCancelled chunkSize receive trace state w
  rw [(hpulls _).mp (pulls_items _ _)] at hne ⊢
  cases hends with
  | cancelled _ hstatus => exact absurd hstatus hne
  | finished hall => exact hfound.trans (flatMap_released h hreceive hall)

/-- The chunks cannot be seen: a scan that is not cancelled, pulled until nothing comes, gives the
items of the lines of its trace, read one after the other, and then those that are complete at the
end, whatever the size of the chunks. It has read all lines, and nothing comes out of it later. -/
theorem pulls_uncancelled (isCancelled : ω → Bool) (chunkSize : Nat) (trace : String) (state : σ)
    (w : ω) :
    ∃ items after w',
      (∀ result, Pulls scanner isCancelled chunkSize receive (start trace state) w result ↔
        result = (items, after, w')) ∧
      (isCancelled w' = false →
        items = shown.recognize (linesOf trace) state (view w) ∧
        after.status = .finished ∧ after.linesScanned = (linesOf trace).length ∧
        ∀ v, next scanner isCancelled chunkSize after v = (none, after, v)) := by
  obtain ⟨items, after, w', hpulls, hitems, hends⟩ :=
    pulls_start scanner isCancelled chunkSize receive trace state w
  refine ⟨items, after, w', hpulls, fun hrunning => ?_⟩
  cases hends with
  | cancelled _ _ _ hcancelled => exact absurd (hcancelled.symm.trans hrunning) nofun
  | finished hall hstatus hready hlines =>
    have hover : after.status ≠ .running := by
      rw [hstatus]
      exact nofun
    exact ⟨hitems.trans (flatMap_released h hreceive hall), hstatus, hlines,
      next_of_over hover hready⟩

omit h hreceive in
/-- The commands of a trace are found in chunks of one line, also the one that is continued behind
its chunk. -/
theorem pulls_continued :
    ∃ after n, Pulls Command.scanner (fun n : Nat => n == 9) 1 (fun _ n => n + 1)
        (start "gcc -c \\\na.c\nar a.o\n" none) 0 (["gcc -c a.c", "ar a.o"], after, n) ∧
      after.status = .finished ∧ after.linesScanned = 3 := by
  have hshows : LineScanner.Shows (fun _ : Nat => ()) Command.scanner Command.scanner :=
    ⟨fun _ _ _ => rfl, rfl⟩
  obtain ⟨items, after, n, hpulls, hspec⟩ := @pulls_uncancelled _ _ _ _ (fun _ n => n + 1) _ _ _
    hshows (fun _ _ => rfl) (fun n => n == 9) 1 "gcc -c \\\na.c\nar a.o\n" none 0
  have hend : n = 2 := (congrArg (·.2.2) ((hpulls _).mp (pulls_items _ _))).symm.trans
    (by decide +kernel)
  obtain ⟨hitems, hstatus, hlines, -⟩ := hspec (by rw [hend]; rfl)
  have hcommands : items = ["gcc -c a.c", "ar a.o"] := hitems.trans (by decide +kernel)
  have hcount : after.linesScanned = 3 := hlines.trans (by decide +kernel)
  exact ⟨after, n, (hpulls _).mpr (by rw [hcommands]), hstatus, hcount⟩

/-- Whole chunks only: however a scan is cancelled, the items that come are those of its first
chunks, up to the first one at a border of which the cancellation is noticed. It is finished if and
only if all items came and no cancellation was noticed. Asked for all items at once, it gives all or
none. -/
theorem pulls_chunks (isCancelled : ω → Bool) (chunkSize : Nat) (trace : String) (state : σ)
    (w : ω) :
    let lines := linesOf trace
    let size := max chunkSize 1
    let full := lines.length / size
    let whole := (chunks shown (fun _ v => v) size full lines state (view w)).map Chunk.items
    let borders := chunks scanner receive size full lines state w
    ∃ items after w',
      (∀ result, Pulls scanner isCancelled chunkSize receive (start trace state) w result ↔
        result = (items, after, w')) ∧
      whole.flatten = shown.recognize lines state (view w) ∧
      (∃ j, items = (whole.take j).flatten ∧
        (∀ chunk ∈ borders.take j, chunk.notices isCancelled = false) ∧
        ∀ chunk, borders[j]? = some chunk → chunk.notices isCancelled = true) ∧
      (after.status = .finished ↔ items = whole.flatten ∧
        ∀ chunk ∈ borders, chunk.notices isCancelled = false) ∧
      (after.status = .finished ∨ after.status = .cancelled) ∧
      (complete? scanner isCancelled chunkSize trace state w).1 =
        if (chunks scanner (fun _ w => w) size full lines state w).any (·.notices isCancelled)
        then none else some whole.flatten := by
  intro lines size full whole borders
  have hwhole : borders.map Chunk.items = whole := chunks_view h hreceive size full lines state w
  have hflatten : whole.flatten = shown.recognize lines state (view w) :=
    flatMap_chunks size full lines state (view w)
  obtain ⟨items, after, w', hpulls, hitems, hends⟩ :=
    pulls_start scanner isCancelled chunkSize receive trace state w
  change items = (borders.takeWhile _).flatMap Chunk.items at hitems
  refine ⟨items, after, w', hpulls, hflatten, ?_, ?_, ?_, ?_⟩
  · -- The first chunk that is dropped is the first one at a border of which a cancellation is
    -- noticed.
    refine ⟨borders.findIdx (·.notices isCancelled), ?_, ?_, ?_⟩
    · rw [hitems, List.takeWhile_eq_take_findIdx_not, List.flatMap_def, List.map_take, hwhole]
      simp only [Bool.not_not]
    · intro chunk hchunk
      obtain ⟨i, hi, rfl⟩ := List.mem_take_iff_getElem.mp hchunk
      exact List.not_of_lt_findIdx (Nat.lt_min.mp hi).1
    · intro chunk hchunk
      obtain ⟨hlt, rfl⟩ := List.getElem?_eq_some_iff.mp hchunk
      exact List.findIdx_getElem
  · constructor
    · intro hfinished
      cases hends with
      | cancelled _ hstatus => exact absurd (hstatus.symm.trans hfinished) nofun
      | finished hall =>
        have hnone := List.all_eq_true.mp hall
        rw [List.takeWhile_eq_self_iff.mpr hnone, List.flatMap_def, hwhole] at hitems
        exact ⟨hitems, fun chunk hchunk => by simpa using hnone chunk hchunk⟩
    · rintro ⟨-, hnone⟩
      cases hends with
      | finished _ hstatus => exact hstatus
      | cancelled hany =>
        obtain ⟨chunk, hchunk, hnotices⟩ := List.any_eq_true.mp hany
        exact absurd (hnotices.symm.trans (hnone chunk hchunk)) nofun
  · cases hends with
    | finished _ hstatus => exact .inl hstatus
    | cancelled _ hstatus => exact .inr hstatus
  · rw [complete?_eq, hflatten, ← flatMap_chunks size full lines state w,
      flatMap_chunks_view h fun _ _ => rfl]

omit h hreceive in
/-- The receiver of the third command cancels the scan: the fourth one still comes, for its chunk
has been released, and the others do not. -/
theorem pulls_chunks_released :
    let isCancelled := fun n : Nat => decide (3 ≤ n)
    let trace := "ar a\nar b\nar c\nar d\nar e\nar f\n"
    (∃ after n, Pulls Command.scanner isCancelled 2 (fun _ n => n + 1) (start trace none) 0
        (["ar a", "ar b", "ar c", "ar d"], after, n) ∧ after.status = .cancelled) ∧
      (complete? Command.scanner isCancelled 2 trace none 0).1
        = some ["ar a", "ar b", "ar c", "ar d", "ar e", "ar f"] := by
  intro isCancelled trace
  have hshows : LineScanner.Shows (fun _ : Nat => ()) Command.scanner Command.scanner :=
    ⟨fun _ _ _ => rfl, rfl⟩
  obtain ⟨items, after, n, hpulls, -, -, hfinished, hends, hcomplete⟩ :=
    @pulls_chunks _ _ _ _ (fun _ n => n + 1) _ _ _ hshows (fun _ _ => rfl) isCancelled 2 trace
      none 0
  have hitems : items = ["ar a", "ar b", "ar c", "ar d"] :=
    (congrArg (·.1) ((hpulls _).mp (pulls_items _ _))).symm.trans (by decide +kernel)
  refine ⟨⟨after, n, (hpulls _).mpr (by rw [hitems]), ?_⟩, hcomplete.trans (by decide +kernel)⟩
  refine hends.resolve_left fun hall => ?_
  exact absurd (hitems.symm.trans (hfinished.mp hall).1) (by decide +kernel)

end View

end Scan

end BuildTrace
