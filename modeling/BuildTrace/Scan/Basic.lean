import BuildTrace.Text.Basic

/-!
# Scans

A scan reads the lines of a trace in chunks and hands out the items a recognizer finds, one at a
time. Between two chunks it asks whether it was cancelled: the items of a chunk are handed out
only if it was not, so a cancelled scan has handed out whole chunks.

A recognizer keeps a state of its own. The surroundings of a scan, which both the recognizer and
the receiver of the items may change, are threaded through; they know about the cancellation.
-/

namespace BuildTrace

/-- A recognizer of items in the lines of a trace, with state `σ`, in surroundings `ω`. -/
structure LineScanner (ω σ ι : Type) where
  /-- Read one line: the items found, in order, and what becomes of state and surroundings. -/
  scanLine : String → σ → ω → List ι × σ × ω
  /-- The items that are complete only with the end of the trace. -/
  finish : σ → List ι

namespace LineScanner

variable {ω σ ι : Type}

/-- Read several lines. -/
def scanLines (scanner : LineScanner ω σ ι) : List String → σ → ω → List ι × σ × ω
  | [], s, w => ([], s, w)
  | line :: rest, s, w =>
    let (found, s, w) := scanner.scanLine line s w
    let (more, s, w) := scanner.scanLines rest s w
    (found ++ more, s, w)

/-- A recognizer that has no use for its surroundings. -/
def ofPure (scanLine : String → σ → List ι × σ) (finish : σ → List ι) : LineScanner ω σ ι where
  scanLine line s w := let (found, s) := scanLine line s; (found, s, w)
  finish := finish

end LineScanner

/-- Where a scan stands. -/
inductive Scan.Status where
  /-- There may be more items. -/
  | running
  /-- The whole trace has been read. -/
  | finished
  /-- The cancellation was noticed. -/
  | cancelled
  deriving DecidableEq, Repr

/-- A scan under way. -/
structure Scan (σ ι : Type) where
  /-- The lines that have not been read. -/
  remaining : List String
  /-- The state of the recognizer. -/
  state : σ
  /-- The items to hand out next. -/
  ready : List ι := []
  /-- Where the scan stands. -/
  status : Scan.Status := .running
  /-- The number of lines read. -/
  linesScanned : Nat := 0

namespace Scan

variable {ω σ ι : Type}

/-- The scan of a trace from its first line. -/
def start (trace : String) (state : σ) : Scan σ ι :=
  { remaining := (Text.lines trace.toList).map String.ofList, state }

/-- Read one chunk of lines. A chunk that is not full is the last one. -/
def nextChunk (scanner : LineScanner ω σ ι) (isCancelled : ω → Bool) (chunkSize : Nat)
    (scan : Scan σ ι) (w : ω) : Scan σ ι × ω :=
  if isCancelled w then ({ scan with status := .cancelled }, w)
  else
    let size := max chunkSize 1
    let chunk := scan.remaining.take size
    let (found, state, w) := scanner.scanLines chunk scan.state w
    let last := chunk.length < size
    let found := if last then found ++ scanner.finish state else found
    let scan :=
      { scan with
        remaining := scan.remaining.drop size
        state
        linesScanned := scan.linesScanned + chunk.length
        status := if last then .finished else .running }
    if isCancelled w then ({ scan with status := .cancelled }, w)
    else ({ scan with ready := found }, w)

/-- The bound on the chunks that can follow: each but the last takes a line. -/
def chunksLeft (scan : Scan σ ι) : Nat :=
  match scan.status with
  | .running => scan.remaining.length + 1
  | _ => 0

/-- Read chunks until there is an item to hand out or nothing more comes. -/
def advance (scanner : LineScanner ω σ ι) (isCancelled : ω → Bool) (chunkSize : Nat) :
    Nat → Scan σ ι → ω → Scan σ ι × ω
  | 0, scan, w => (scan, w)
  | fuel + 1, scan, w =>
    if scan.ready.isEmpty && scan.status == .running then
      let (scan, w) := nextChunk scanner isCancelled chunkSize scan w
      advance scanner isCancelled chunkSize fuel scan w
    else (scan, w)

/-- The next item, if there is one. -/
def next (scanner : LineScanner ω σ ι) (isCancelled : ω → Bool) (chunkSize : Nat)
    (scan : Scan σ ι) (w : ω) : Option ι × Scan σ ι × ω :=
  let (scan, w) := advance scanner isCancelled chunkSize scan.chunksLeft scan w
  match scan.ready with
  | [] => (none, scan, w)
  | item :: rest => (some item, { scan with ready := rest }, w)

/-- Take all items a scan hands out, `receive` being what the receiver of an item does to the
surroundings. -/
def drain (scanner : LineScanner ω σ ι) (isCancelled : ω → Bool) (chunkSize : Nat)
    (receive : ι → ω → ω) : Nat → Scan σ ι → ω → List ι × Scan σ ι × ω
  | 0, scan, w =>
    (scan.ready, { scan with ready := [] }, scan.ready.foldl (fun w item => receive item w) w)
  | chunks + 1, scan, w =>
    let w := scan.ready.foldl (fun w item => receive item w) w
    if scan.status == .running then
      let (after, w) := nextChunk scanner isCancelled chunkSize { scan with ready := [] } w
      let (items, scan', w) := drain scanner isCancelled chunkSize receive chunks after w
      (scan.ready ++ items, scan', w)
    else (scan.ready, { scan with ready := [] }, w)

/-- All items a scan hands out, and where it ends. -/
def items (scanner : LineScanner ω σ ι) (isCancelled : ω → Bool) (chunkSize : Nat)
    (receive : ι → ω → ω) (scan : Scan σ ι) (w : ω) : List ι × Scan σ ι × ω :=
  drain scanner isCancelled chunkSize receive scan.chunksLeft scan w

/-- All items of the trace, or `none` if the scan was cancelled. -/
def complete? (scanner : LineScanner ω σ ι) (isCancelled : ω → Bool) (chunkSize : Nat)
    (trace : String) (state : σ) (w : ω) : Option (List ι) × ω :=
  let (items, scan, w) :=
    Scan.items scanner isCancelled chunkSize (fun _ w => w) (start trace state) w
  (if scan.status == .cancelled then none else some items, w)

end Scan

end BuildTrace
