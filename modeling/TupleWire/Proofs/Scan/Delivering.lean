import TupleWire.Scan.Delivery

/-! What a delivery does with each row, the induction over its rows, and the scans that it asks
for them. -/
namespace TupleWire

/-- The answer that a sink has for the message of that number from now on. -/
def Sink.answer (sink : Sink) (n : Nat) : Except Error Receipt :=
  sink.answers[n]?.getD (.ok .taken)

theorem Sink.of_offer {sink after : Sink} {message : Bytes} {receipt : Except Error Receipt}
    (offered : sink.offer message = (receipt, after)) :
    receipt = sink.answer 0 ∧ (∀ n, after.answer n = sink.answer (n + 1)) ∧
      after.offered = sink.offered ++ [message] := by
  obtain ⟨answers, before⟩ := sink
  cases answers with
  | nil =>
      cases offered
      exact ⟨rfl, fun n => rfl, rfl⟩
  | cons answer answers =>
      cases offered
      exact ⟨rfl, fun n => rfl, rfl⟩

namespace Scan

variable {σ ω : Type} [Source σ ω] {scan : Scan σ} {sink after : Sink} {world : ω} {tally : Tally}
  {turn : Turn σ ω}

theorem deliverRows_of_error {e : Error} (asked : scan.writeNext scan.freshBuf world = turn)
    (failed : turn.result = .error e) :
    scan.deliverRows sink world tally =
      { result := .error e, scan := turn.scan, sink, world := turn.world } := by
  subst asked
  rw [deliverRows]
  simp only
  split
  · next same =>
      cases failed.symm.trans same
      rfl
  · next same => cases failed.symm.trans same
  · next same => cases failed.symm.trans same

theorem deliverRows_of_end (asked : scan.writeNext scan.freshBuf world = turn)
    (ended : turn.result = .ok false) :
    scan.deliverRows sink world tally =
      { result := (sink.offer Message.endMark).1.map fun
          | .taken => tally
          | .detached => tally.detach
        scan := turn.scan, sink := (sink.offer Message.endMark).2, world := turn.world } := by
  subst asked
  rw [deliverRows]
  simp only
  split
  · next same => cases ended.symm.trans same
  · rfl
  · next same => cases ended.symm.trans same

theorem deliverRows_of_row (asked : scan.writeNext scan.freshBuf world = turn)
    (written : turn.result = .ok true) :
    scan.deliverRows sink world tally =
      match Message.wrap turn.buf.bytes with
      | .error e => { result := .error e, scan := turn.scan, sink, world := turn.world }
      | .ok message =>
          match sink.offer message with
          | (.error e, sink) =>
              { result := .error e, scan := turn.scan, sink, world := turn.world }
          | (.ok .detached, sink) =>
              { result := .ok tally.detach, scan := turn.scan, sink, world := turn.world }
          | (.ok .taken, sink) => turn.scan.deliverRows sink turn.world (tally.add message) := by
  subst asked
  rw [deliverRows]
  simp only
  split
  · next same => cases written.symm.trans same
  · next same => cases written.symm.trans same
  · rfl

/-- Induction over the rows of a delivery. -/
theorem deliverRows_induct
    {motive : Scan σ → Sink → ω → Tally → Delivered σ ω → Prop}
    (failed : ∀ scan sink world tally turn e, scan.writeNext scan.freshBuf world = turn →
      turn.result = .error e →
      motive scan sink world tally
        { result := .error e, scan := turn.scan, sink, world := turn.world })
    (ended : ∀ scan sink world tally turn, scan.writeNext scan.freshBuf world = turn →
      turn.result = .ok false →
      motive scan sink world tally
        { result := (sink.offer Message.endMark).1.map fun
            | .taken => tally
            | .detached => tally.detach
          scan := turn.scan, sink := (sink.offer Message.endMark).2, world := turn.world })
    (unwrapped : ∀ scan sink world tally turn e, scan.writeNext scan.freshBuf world = turn →
      turn.result = .ok true → Message.wrap turn.buf.bytes = .error e →
      motive scan sink world tally
        { result := .error e, scan := turn.scan, sink, world := turn.world })
    (refused : ∀ scan sink world tally turn message e after,
      scan.writeNext scan.freshBuf world = turn → turn.result = .ok true →
      Message.wrap turn.buf.bytes = .ok message → sink.offer message = (.error e, after) →
      motive scan sink world tally
        { result := .error e, scan := turn.scan, sink := after, world := turn.world })
    (detached : ∀ scan sink world tally turn message after,
      scan.writeNext scan.freshBuf world = turn → turn.result = .ok true →
      Message.wrap turn.buf.bytes = .ok message → sink.offer message = (.ok .detached, after) →
      motive scan sink world tally
        { result := .ok tally.detach, scan := turn.scan, sink := after, world := turn.world })
    (taken : ∀ scan sink world tally turn message after,
      scan.writeNext scan.freshBuf world = turn → turn.result = .ok true →
      Message.wrap turn.buf.bytes = .ok message → sink.offer message = (.ok .taken, after) →
      motive turn.scan after turn.world (tally.add message)
        (turn.scan.deliverRows after turn.world (tally.add message)) →
      motive scan sink world tally
        (turn.scan.deliverRows after turn.world (tally.add message)))
    (scan : Scan σ) (sink : Sink) (world : ω) (tally : Tally) :
    motive scan sink world tally (scan.deliverRows sink world tally) := by
  -- The supply of a scan bounds the rows that it can still write.
  induction supply : scan.supply using Nat.strongRecOn generalizing scan sink world tally with
  | ind n ih =>
      subst supply
      rcases asked : (scan.writeNext scan.freshBuf world).result with e | _ | _
      · rw [deliverRows_of_error rfl asked]
        exact failed scan sink world tally _ e rfl asked
      · rw [deliverRows_of_end rfl asked]
        exact ended scan sink world tally _ rfl asked
      · have less := supply_writeNext_lt asked
        rw [deliverRows_of_row rfl asked]
        split
        · next e bad => exact unwrapped scan sink world tally _ e rfl asked bad
        · next message wrapped =>
            split
            · next e after offered =>
                exact refused scan sink world tally _ message e after rfl asked wrapped offered
            · next after offered =>
                exact detached scan sink world tally _ message after rfl asked wrapped offered
            · next after offered =>
                exact taken scan sink world tally _ message after rfl asked wrapped offered
                  (ih _ less _ after _ (tally.add message) rfl)

/-- The scans that a delivery asks for a row, each in its world: the one that it begins with, and
what is left of it after each message that the sink has taken. -/
inductive Asked : Scan σ → Sink → ω → Scan σ → ω → Prop
  | first (scan : Scan σ) (sink : Sink) (world : ω) : Asked scan sink world scan world
  | later {scan : Scan σ} {sink : Sink} {world : ω} {turn : Turn σ ω} {message : Bytes}
      {after : Sink} {last : Scan σ} {seen : ω}
      (called : scan.writeNext scan.freshBuf world = turn) (written : turn.result = .ok true)
      (wrapped : Message.wrap turn.buf.bytes = .ok message)
      (taken : sink.offer message = (.ok .taken, after))
      (rest : Asked turn.scan after turn.world last seen) : Asked scan sink world last seen

/-- What a call for a row keeps is true of every scan that a delivery asks. -/
theorem Asked.keeps {motive : Scan σ → ω → Prop}
    (step : ∀ scan world, motive scan world →
      motive (scan.writeNext scan.freshBuf world).scan (scan.writeNext scan.freshBuf world).world)
    {last : Scan σ} {seen : ω} (asked : scan.Asked sink world last seen)
    (begun : motive scan world) : motive last seen := by
  induction asked with
  | first scan sink world => exact begun
  | @later scan sink world turn message after last seen called written wrapped taken rest ih =>
      subst called
      exact ih (step scan world begun)

theorem exists_asked (scan : Scan σ) (sink : Sink) (world : ω) (tally : Tally) :
    ∃ last seen, scan.Asked sink world last seen ∧
      (scan.deliverRows sink world tally).scan = (last.writeNext last.freshBuf seen).scan ∧
      (scan.deliverRows sink world tally).world = (last.writeNext last.freshBuf seen).world := by
  refine deliverRows_induct
    (motive := fun scan sink world _ sent => ∃ last seen, scan.Asked sink world last seen ∧
      sent.scan = (last.writeNext last.freshBuf seen).scan ∧
      sent.world = (last.writeNext last.freshBuf seen).world)
    ?_ ?_ ?_ ?_ ?_ ?_ scan sink world tally
  · rintro scan sink world tally turn e rfl _
    exact ⟨scan, world, .first scan sink world, rfl, rfl⟩
  · rintro scan sink world tally turn rfl _
    exact ⟨scan, world, .first scan sink world, rfl, rfl⟩
  · rintro scan sink world tally turn e rfl _ _
    exact ⟨scan, world, .first scan sink world, rfl, rfl⟩
  · rintro scan sink world tally turn message e after rfl _ _ _
    exact ⟨scan, world, .first scan sink world, rfl, rfl⟩
  · rintro scan sink world tally turn message after rfl _ _ _
    exact ⟨scan, world, .first scan sink world, rfl, rfl⟩
  · rintro scan sink world tally turn message after called written wrapped taken
      ⟨last, seen, rest, left⟩
    exact ⟨last, seen, .later called written wrapped taken rest, left⟩

end Scan

end TupleWire
