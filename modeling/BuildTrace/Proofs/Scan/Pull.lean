import BuildTrace.Scan.Basic

/-!
# Pulling a scan

The items of a scan are pulled one at a time, and the receiver of an item may act before the next
one is pulled. This module proves that pulling until nothing comes always has an end, and that it
gives the items the scan hands out at once.

## Main definitions

* `Scan.Pulls`: what comes when a scan is pulled until nothing comes.

## Main results

* `Scan.items_eq` and `Scan.next_eq`: a scan goes on chunk by chunk, without a bound on the chunks;
* `Scan.pulls_iff`: pulling a scan to its end gives what the scan hands out.
-/

namespace BuildTrace.Scan

variable {ω σ ι : Type} {scanner : LineScanner ω σ ι} {isCancelled : ω → Bool} {chunkSize : Nat}
  {receive : ι → ω → ω} {scan : Scan σ ι} {w : ω}

/-! ## Chunks that can follow -/

theorem chunksLeft_of_running (h : scan.status = .running) :
    scan.chunksLeft = scan.remaining.length + 1 := by
  rw [chunksLeft, h]

theorem chunksLeft_of_ne_running (h : scan.status ≠ .running) : scan.chunksLeft = 0 := by
  rw [chunksLeft]
  split
  next hrunning => exact absurd hrunning h
  next => rfl

/-- A chunk that is not the last one has taken a line. -/
theorem chunksLeft_nextChunk (h : scan.status = .running) :
    (nextChunk scanner isCancelled chunkSize scan w).1.chunksLeft < scan.chunksLeft := by
  rw [chunksLeft_of_running h]
  by_cases hrunning : (nextChunk scanner isCancelled chunkSize scan w).1.status = .running
  · rw [chunksLeft_of_running hrunning]
    rw [nextChunk] at hrunning ⊢
    split at hrunning
    next => cases hrunning
    next hnot =>
      rw [if_neg hnot]
      dsimp only at hrunning ⊢
      split at hrunning
      next => cases hrunning
      next hnot' =>
        rw [if_neg hnot']
        -- The chunk was full, and a full chunk has at least one line.
        have hfull : ¬ (scan.remaining.take (max chunkSize 1)).length < max chunkSize 1 := by
          intro hshort
          simp only [hshort, if_true] at hrunning
          cases hrunning
        simp only [List.length_take, List.length_drop] at hfull ⊢
        omega
  · rw [chunksLeft_of_ne_running hrunning]
    omega

/-! ## Scans without a bound -/

/-- More chunks than can follow make no difference. -/
theorem drain_congr {chunks chunks' : Nat} (h : scan.chunksLeft ≤ chunks)
    (h' : scan.chunksLeft ≤ chunks') :
    drain scanner isCancelled chunkSize receive chunks scan w
      = drain scanner isCancelled chunkSize receive chunks' scan w := by
  induction chunks generalizing chunks' scan w with
  | zero =>
    have hover : scan.status ≠ .running := by
      intro hrunning
      rw [chunksLeft_of_running hrunning] at h
      omega
    cases chunks' with
    | zero => rfl
    | succ chunks' => simp [drain, hover]
  | succ chunks ih =>
    by_cases hrunning : scan.status = .running
    · obtain ⟨chunks', rfl⟩ : ∃ n, chunks' = n + 1 := by
        rw [chunksLeft_of_running hrunning] at h'
        exact ⟨chunks' - 1, by omega⟩
      have hbeq : (scan.status == .running) = true := by simp [hrunning]
      rw [drain, drain]
      simp only [hbeq, if_true]
      -- Fewer chunks can follow the next one.
      have hnext : (nextChunk scanner isCancelled chunkSize { scan with ready := [] }
          (scan.ready.foldl (fun w item => receive item w) w)).1.chunksLeft < scan.chunksLeft :=
        chunksLeft_nextChunk hrunning
      rw [ih (by omega) (show _ ≤ chunks' by omega)]
    · cases chunks' with
      | zero => simp [drain, hrunning]
      | succ chunks' => simp [drain, hrunning]

/-- What is ready is handed out, and if the scan is not over, the next chunk is read. -/
theorem items_eq (scan : Scan σ ι) (w : ω) :
    items scanner isCancelled chunkSize receive scan w =
      let w := scan.ready.foldl (fun w item => receive item w) w
      if scan.status = .running then
        let (after, w) := nextChunk scanner isCancelled chunkSize { scan with ready := [] } w
        let (more, last, w) := items scanner isCancelled chunkSize receive after w
        (scan.ready ++ more, last, w)
      else (scan.ready, { scan with ready := [] }, w) := by
  by_cases hrunning : scan.status = .running
  · have hbeq : (scan.status == .running) = true := by simp [hrunning]
    rw [if_pos hrunning, items, chunksLeft_of_running hrunning, drain]
    simp only [hbeq, if_true]
    have hnext : (nextChunk scanner isCancelled chunkSize { scan with ready := [] }
        (scan.ready.foldl (fun w item => receive item w) w)).1.chunksLeft < scan.chunksLeft :=
      chunksLeft_nextChunk hrunning
    rw [chunksLeft_of_running hrunning] at hnext
    rw [drain_congr (Nat.le_of_lt_succ hnext) (Nat.le_refl _)]
    rfl
  · rw [if_neg hrunning, items, chunksLeft_of_ne_running hrunning, drain]

/-- More chunks than can follow make no difference to the next item. -/
theorem advance_congr {chunks chunks' : Nat} (h : scan.chunksLeft ≤ chunks)
    (h' : scan.chunksLeft ≤ chunks') :
    advance scanner isCancelled chunkSize chunks scan w
      = advance scanner isCancelled chunkSize chunks' scan w := by
  -- The induction is on one of the two bounds; reading a chunk leaves fewer to come, within both.
  induction chunks generalizing chunks' scan w with
  | zero =>
    have hover : scan.status ≠ .running := by
      intro hrunning
      rw [chunksLeft_of_running hrunning] at h
      omega
    cases chunks' with
    | zero => rfl
    | succ chunks' => simp [advance, hover]
  | succ chunks ih =>
    by_cases hreads : (scan.ready.isEmpty && scan.status == .running) = true
    · have hrunning : scan.status = .running := by
        simp only [Bool.and_eq_true, beq_iff_eq] at hreads
        exact hreads.2
      obtain ⟨chunks', rfl⟩ : ∃ n, chunks' = n + 1 := by
        rw [chunksLeft_of_running hrunning] at h'
        exact ⟨chunks' - 1, by omega⟩
      have hnext : (nextChunk scanner isCancelled chunkSize scan w).1.chunksLeft
          < scan.chunksLeft := chunksLeft_nextChunk hrunning
      rw [advance, advance, if_pos hreads, if_pos hreads]
      rcases hafter : nextChunk scanner isCancelled chunkSize scan w with ⟨after, v⟩
      rw [hafter] at hnext
      dsimp only at hnext ⊢
      exact ih (by omega) (by omega)
    · cases chunks' with
      | zero => rw [advance, advance, if_neg hreads]
      | succ chunks' => rw [advance, advance, if_neg hreads, if_neg hreads]

/-- The next item is one that is ready; if there is none and the scan is not over, it is the next
one after the next chunk was read. -/
theorem next_eq (scan : Scan σ ι) (w : ω) :
    next scanner isCancelled chunkSize scan w =
      match scan.ready with
      | item :: rest => (some item, { scan with ready := rest }, w)
      | [] =>
        if scan.status = .running then
          let (after, w) := nextChunk scanner isCancelled chunkSize scan w
          next scanner isCancelled chunkSize after w
        else (none, scan, w) := by
  -- Where no chunk is read, the scan is left as it is.
  have hstays : ¬ (scan.ready.isEmpty && scan.status == .running) = true →
      advance scanner isCancelled chunkSize scan.chunksLeft scan w = (scan, w) := by
    intro hnot
    cases scan.chunksLeft with
    | zero => rfl
    | succ chunks => rw [advance, if_neg hnot]
  cases hready : scan.ready with
  | cons item rest =>
    rw [next, hstays (by simp [hready])]
    simp only [hready]
  | nil =>
    by_cases hrunning : scan.status = .running
    · have hreads : (scan.ready.isEmpty && scan.status == .running) = true := by
        simp [hready, hrunning]
      have hnext : (nextChunk scanner isCancelled chunkSize scan w).1.chunksLeft
          < scan.chunksLeft := chunksLeft_nextChunk hrunning
      rw [chunksLeft_of_running hrunning] at hnext
      simp only [hrunning, if_true]
      rw [next, chunksLeft_of_running hrunning, advance, if_pos hreads]
      rcases hafter : nextChunk scanner isCancelled chunkSize scan w with ⟨after, v⟩
      rw [hafter] at hnext
      dsimp only
      rw [advance_congr (Nat.le_of_lt_succ hnext) (Nat.le_refl _), next]
    · rw [next, hstays (by simp [hrunning])]
      simp only [hready, hrunning, if_false]

/-! ## Pulling -/

/-- What comes when a scan is pulled until nothing comes: the items, the scan and the surroundings
at the end. The receiver of an item acts before the next one is pulled. -/
inductive Pulls (scanner : LineScanner ω σ ι) (isCancelled : ω → Bool) (chunkSize : Nat)
    (receive : ι → ω → ω) : Scan σ ι → ω → List ι × Scan σ ι × ω → Prop where
  /-- Nothing comes any more. -/
  | done {scan after : Scan σ ι} {w w' : ω} :
      next scanner isCancelled chunkSize scan w = (none, after, w') →
      Pulls scanner isCancelled chunkSize receive scan w ([], after, w')
  /-- An item comes, and is received. -/
  | item {scan after : Scan σ ι} {w w' : ω} {item : ι} {items : List ι} {last : Scan σ ι × ω} :
      next scanner isCancelled chunkSize scan w = (some item, after, w') →
      Pulls scanner isCancelled chunkSize receive after (receive item w') (items, last) →
      Pulls scanner isCancelled chunkSize receive scan w (item :: items, last)

/-- The items begin with the next one, which is received before the others come. -/
theorem items_of_next (scan : Scan σ ι) (w : ω) :
    items scanner isCancelled chunkSize receive scan w =
      match next scanner isCancelled chunkSize scan w with
      | (none, after, w) => ([], after, w)
      | (some item, after, w) =>
        let (more, last) := items scanner isCancelled chunkSize receive after (receive item w)
        (item :: more, last) := by
  -- The induction is on the chunks that can follow: some of them may have no items.
  induction hleft : scan.chunksLeft using Nat.strongRecOn generalizing scan w with
  | _ left ih =>
    rcases scan with ⟨remaining, state, _ | ⟨item, rest⟩, status, count⟩
    · rw [next_eq, items_eq]
      by_cases hrunning : status = .running
      · subst hrunning
        exact ih _ (hleft ▸ chunksLeft_nextChunk rfl) _ _ rfl
      · simp only [hrunning, if_false, List.foldl_nil]
    · rw [next_eq, items_eq]
      dsimp only
      rw [items_eq ⟨remaining, state, rest, status, count⟩]
      by_cases hrunning : status = .running
      · simp only [hrunning, if_true, List.foldl_cons, List.cons_append]
      · simp only [hrunning, if_false, List.foldl_cons]

/-- Pulling a scan comes to an end, and gives what the scan hands out. -/
theorem pulls_items (scan : Scan σ ι) (w : ω) :
    Pulls scanner isCancelled chunkSize receive scan w
      (items scanner isCancelled chunkSize receive scan w) := by
  have hitems : items scanner isCancelled chunkSize receive scan w = _ := items_of_next scan w
  rcases hnext : next scanner isCancelled chunkSize scan w with ⟨_ | item, after, w'⟩
  · rw [hnext] at hitems
    rw [hitems]
    exact .done hnext
  · rw [hnext] at hitems
    -- One item fewer is to come when this one was pulled.
    have hless : (items scanner isCancelled chunkSize receive after (receive item w')).1.length
        < (items scanner isCancelled chunkSize receive scan w).1.length := by
      rw [hitems]
      exact Nat.lt_succ_self _
    rw [hitems]
    exact .item hnext (pulls_items after (receive item w'))
termination_by (items scanner isCancelled chunkSize receive scan w).1.length

/-- Pulling a scan to its end gives what the scan hands out, and nothing else. -/
theorem pulls_iff {result : List ι × Scan σ ι × ω} :
    Pulls scanner isCancelled chunkSize receive scan w result ↔
      result = items scanner isCancelled chunkSize receive scan w := by
  constructor
  · intro h
    induction h with
    | done hnext => rw [items_of_next, hnext]
    | item hnext _ ih =>
      rw [items_of_next, hnext]
      dsimp only
      rw [← ih]
  · rintro rfl
    exact pulls_items scan w

end BuildTrace.Scan
