import BuildTrace.Scan.Basic

/-!
# The course of a scan

What a scan does to its surroundings is done by its recognizer, line by line, and by the receiver
of the items. So a relation that holds across each of these steps holds across the whole scan, and
a property of all items that are found in a line is one of all items that are handed out.

## Main results

* `Scan.items_rel`: a scan relates the surroundings as each of its steps does;
* `LineScanner.scanLines_view`: a recognizer can be followed in a view of its surroundings;
* `Scan.forall_mem_items`: the items of a scan are as those of each line;
* `Scan.complete?_ofPure`: a recognizer that has no use for its surroundings leaves them alone.
-/

namespace BuildTrace

variable {ω σ ι : Type}

/-! ## Surroundings -/

section Surroundings

variable {R : ω → ω → Prop} (hrefl : ∀ w, R w w) (htrans : ∀ {u v w}, R u v → R v w → R u w)
  {scanner : LineScanner ω σ ι} (hline : ∀ line state w, R w (scanner.scanLine line state w).2.2)
  {isCancelled : ω → Bool} {chunkSize : Nat}

include hrefl htrans hline

theorem LineScanner.scanLines_rel (lines : List String) (state : σ) (w : ω) :
    R w (scanner.scanLines lines state w).2.2 := by
  induction lines generalizing state w with
  | nil => exact hrefl w
  | cons line lines ih => exact htrans (hline line state w) (ih _ _)

theorem Scan.nextChunk_rel (scan : Scan σ ι) (w : ω) :
    R w (nextChunk scanner isCancelled chunkSize scan w).2 := by
  rw [nextChunk]
  split
  · exact hrefl w
  · have hchunk := LineScanner.scanLines_rel hrefl htrans hline
      (scan.remaining.take (max chunkSize 1)) scan.state w
    dsimp only
    split <;> exact hchunk

variable {receive : ι → ω → ω} (hreceive : ∀ item w, R w (receive item w))

include hreceive

omit hline in
theorem Scan.foldl_receive_rel (items : List ι) (w : ω) :
    R w (items.foldl (fun w item => receive item w) w) := by
  induction items generalizing w with
  | nil => exact hrefl w
  | cons item items ih => exact htrans (hreceive item w) (ih _)

theorem Scan.drain_rel (chunks : Nat) (scan : Scan σ ι) (w : ω) :
    R w (drain scanner isCancelled chunkSize receive chunks scan w).2.2 := by
  induction chunks generalizing scan w with
  | zero => exact Scan.foldl_receive_rel hrefl htrans hreceive scan.ready w
  | succ chunks ih =>
    -- What is ready is handed out before the next chunk is read.
    have hready := Scan.foldl_receive_rel hrefl htrans hreceive scan.ready w
    rw [drain]
    split
    · exact htrans hready (htrans (Scan.nextChunk_rel hrefl htrans hline _ _) (ih _ _))
    · exact hready

/-- A scan relates its surroundings before and after as the recognizer and the receiver do. -/
theorem Scan.items_rel (scan : Scan σ ι) (w : ω) :
    R w (Scan.items scanner isCancelled chunkSize receive scan w).2.2 :=
  Scan.drain_rel hrefl htrans hline hreceive _ scan w

end Surroundings

/-- A recognizer that has no use for its surroundings leaves them as they are. -/
theorem Scan.complete?_ofPure (scanLine : String → σ → List ι × σ) (finish : σ → List ι)
    (isCancelled : ω → Bool) (chunkSize : Nat) (trace : String) (state : σ) (w : ω) :
    (Scan.complete? (.ofPure scanLine finish) isCancelled chunkSize trace state w).2 = w := by
  have hrel : ∀ scan : Scan σ ι, w = (Scan.items (.ofPure scanLine finish) isCancelled chunkSize
      (fun _ w => w) scan w).2.2 := fun scan =>
    Scan.items_rel (R := Eq) (fun _ => rfl) Eq.trans (fun _ _ _ => rfl) (fun _ _ => rfl) scan w
  exact (hrel (start trace state)).symm

/-! ## Views of the surroundings -/

section Views

variable {ω' : Type} {view : ω' → ω}

/-- A recognizer can be followed in a view of its surroundings. -/
theorem LineScanner.scanLines_view {scanner : LineScanner ω' σ ι} {shown : LineScanner ω σ ι}
    (hline : ∀ line state w, shown.scanLine line state (view w)
      = Prod.map id (Prod.map id view) (scanner.scanLine line state w))
    (lines : List String) (state : σ) (w : ω') :
    shown.scanLines lines state (view w)
      = Prod.map id (Prod.map id view) (scanner.scanLines lines state w) := by
  induction lines generalizing state w with
  | nil => rfl
  | cons line lines ih =>
    rw [scanLines, hline]
    rcases hfound : scanner.scanLine line state w with ⟨found, next, w₁⟩
    dsimp only [Prod.map]
    rw [ih]
    simp only [scanLines, hfound, Prod.map, id]

/-- So can the receiver of the items. -/
theorem Scan.foldl_receive_view {receive' : ι → ω' → ω'} {receive : ι → ω → ω}
    (hreceive : ∀ item w, receive item (view w) = view (receive' item w)) (items : List ι)
    (w : ω') :
    items.foldl (fun w item => receive item w) (view w)
      = view (items.foldl (fun w item => receive' item w) w) := by
  induction items generalizing w with
  | nil => rfl
  | cons item items ih => rw [List.foldl_cons, List.foldl_cons, hreceive, ih]

end Views

/-! ## Items -/

section Items

variable {I : σ → Prop} {P : ι → Prop} {scanner : LineScanner ω σ ι}
  (hline : ∀ line state w, I state →
    I (scanner.scanLine line state w).2.1 ∧ ∀ item ∈ (scanner.scanLine line state w).1, P item)
  (hfinish : ∀ state, I state → ∀ item ∈ scanner.finish state, P item)
  {isCancelled : ω → Bool} {chunkSize : Nat} {receive : ι → ω → ω}

include hline

theorem LineScanner.forall_mem_scanLines (lines : List String) {state : σ} (hstate : I state)
    (w : ω) :
    I (scanner.scanLines lines state w).2.1 ∧
      ∀ item ∈ (scanner.scanLines lines state w).1, P item := by
  induction lines generalizing state w with
  | nil => exact ⟨hstate, nofun⟩
  | cons line lines ih =>
    obtain ⟨hnext, hfound⟩ := hline line state w hstate
    obtain ⟨hlast, hmore⟩ := ih hnext (scanner.scanLine line state w).2.2
    exact ⟨hlast, List.forall_mem_append.mpr ⟨hfound, hmore⟩⟩

include hfinish

theorem Scan.forall_mem_nextChunk {scan : Scan σ ι} (hstate : I scan.state)
    (hready : ∀ item ∈ scan.ready, P item) (w : ω) :
    I (nextChunk scanner isCancelled chunkSize scan w).1.state ∧
      ∀ item ∈ (nextChunk scanner isCancelled chunkSize scan w).1.ready, P item := by
  rw [nextChunk]
  split
  · exact ⟨hstate, hready⟩
  · obtain ⟨hnext, hchunk⟩ := LineScanner.forall_mem_scanLines hline
      (scan.remaining.take (max chunkSize 1)) hstate w
    dsimp only
    split
    · exact ⟨hnext, hready⟩
    · refine ⟨hnext, ?_⟩
      dsimp only
      split
      -- The end of the trace may give items of its own.
      · exact List.forall_mem_append.mpr ⟨hchunk, hfinish _ hnext⟩
      · exact hchunk

theorem Scan.forall_mem_drain (chunks : Nat) {scan : Scan σ ι} (hstate : I scan.state)
    (hready : ∀ item ∈ scan.ready, P item) (w : ω) :
    ∀ item ∈ (drain scanner isCancelled chunkSize receive chunks scan w).1, P item := by
  induction chunks generalizing scan w with
  | zero => exact hready
  | succ chunks ih =>
    rw [drain]
    split
    -- What is ready is handed out, and the next chunk is read from the same state.
    · refine List.forall_mem_append.mpr ⟨hready, ?_⟩
      have hemptied : I { scan with ready := [] : Scan σ ι }.state := hstate
      obtain ⟨hnext, hfound⟩ := Scan.forall_mem_nextChunk hline hfinish hemptied nofun
        (scan.ready.foldl (fun w item => receive item w) w)
      exact ih hnext hfound _
    · exact hready

/-- If every line keeps a property of the states of the recognizer, and the items that are found
in such states have a property, then all items of a scan have it that starts in such a state. -/
theorem Scan.forall_mem_items (trace : String) {state : σ} (hstate : I state) (w : ω) :
    ∀ item ∈ (Scan.items scanner isCancelled chunkSize receive (start trace state) w).1,
      P item :=
  Scan.forall_mem_drain hline hfinish _ hstate (by simp [start]) w

end Items

end BuildTrace
