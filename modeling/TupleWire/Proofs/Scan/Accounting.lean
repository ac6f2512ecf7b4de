import TupleWire.Proofs.Frame.Refusing
import TupleWire.Proofs.Scan.Ending
import TupleWire.Proofs.Scan.Watching

/-! What the source of a scan has been called for: some rows, at most one end or failure behind
them, and at most one release as the last. The phase of the scan tells which of these. -/
namespace TupleWire

namespace Contact

def row (row : Row) : Contact := .fetched (.ok (some row))

/-- Behind a fetch without a row, or a release, there is no fetch. -/
def Orderly (contacts : List Contact) : Prop :=
  contacts.Pairwise fun earlier later => later.isFetch = true → earlier.givesRow = true

theorem orderly_append (rows : List Row) {rest : List Contact} (orderly : Orderly rest) :
    Orderly (rows.map row ++ rest) := by
  induction rows with
  | nil => exact orderly
  | cons first rows ih => exact List.pairwise_cons.mpr ⟨fun _ _ _ => rfl, ih⟩

theorem releases_append (rows : List Row) (rest : List Contact) :
    (rows.map row ++ rest).countP isRelease = rest.countP isRelease := by
  induction rows with
  | nil => rfl
  | cons first rows ih => exact ih

theorem mem_append {rows : List Row} {rest : List Contact} {contact : Contact}
    (bare : contact.givesRow = false) :
    contact ∈ rows.map row ++ rest ↔ contact ∈ rest := by
  constructor
  · intro member
    rcases List.mem_append.mp member with inside | behind
    · obtain ⟨_, _, rfl⟩ := List.mem_map.mp inside
      cases bare
    · exact behind
  · exact List.mem_append_right _

end Contact

/-- The failures that end a scan: those of its source, and that of a malformed row. -/
def Ruined (log : List Contact) (malformed : Prop) (kind : FaultKind) : Prop :=
  (∃ e, .fetched (.error e) ∈ log ∧ e.kind = kind) ∨ malformed ∧ kind = .malformed

/-- Whether a call has failed for a malformed row, or told of a failure of that kind. -/
def TellsMalformed {α : Type} : Except Error α → Prop
  | .error e => e.kind = .malformed
  | .ok _ => False

theorem tellsMalformed_map {α β : Type} (f : α → β) (result : Except Error α) :
    TellsMalformed (result.map f) ↔ TellsMalformed result := by
  cases result with
  | error e => exact Iff.rfl
  | ok a => exact Iff.rfl

/-- What a source was called for behind the rows that it gave, by the phase of its scan and by
whether the scan still has it. `malformed` says that a malformed failure was reported, `closed`
that a call has closed the scan. -/
inductive Phase.Past (malformed closed : Prop) : Phase → Bool → List Contact → Prop
  | running : ¬ malformed → ¬ closed → Past malformed closed .running true []
  | exhausted : ¬ malformed → ¬ closed →
      Past malformed closed .exhausted true [.fetched (.ok none)]
  | closed (released : Except Error Unit) : ¬ malformed → closed →
      Past malformed closed .closed false [.released released]
  | ended (released : Except Error Unit) : ¬ malformed → closed →
      Past malformed closed .closed false [.fetched (.ok none), .released released]
  | failed (e : Error) (released : Except Error Unit) : (malformed → e.kind = .malformed) →
      Past malformed closed (.aborted e.kind) false [.fetched (.error e), .released released]
  | malformed (released : Except Error Unit) : malformed →
      Past malformed closed (.aborted .malformed) false [.released released]

namespace Phase.Past

variable {malformed closed : Prop} {phase : Phase} {present : Bool} {rest : List Contact}

theorem orderly (past : Past malformed closed phase present rest) (rows : List Row) :
    Contact.Orderly (rows.map Contact.row ++ rest) := by
  refine Contact.orderly_append rows ?_
  have pair (first : Contact) (released : Except Error Unit) :
      Contact.Orderly [first, .released released] := by
    simp [Contact.Orderly, Contact.isFetch]
  cases past with
  | running _ _ => exact .nil
  | exhausted _ _ => exact List.pairwise_singleton _ _
  | closed _ _ _ => exact List.pairwise_singleton _ _
  | ended _ _ _ => exact pair _ _
  | failed _ _ _ => exact pair _ _
  | malformed _ _ => exact List.pairwise_singleton _ _

theorem releases (past : Past malformed closed phase present rest) (rows : List Row) :
    (rows.map Contact.row ++ rest).countP Contact.isRelease = if present then 0 else 1 := by
  rw [Contact.releases_append]
  cases past with
  | _ => rfl

theorem finished_of_end (past : Past malformed closed phase present rest) {rows : List Row}
    (ended : .fetched (.ok none) ∈ rows.map Contact.row ++ rest) :
    phase = .exhausted ∨ phase = .closed := by
  rw [Contact.mem_append rfl] at ended
  cases past with
  | exhausted _ _ => exact .inl rfl
  | ended _ _ _ => exact .inr rfl
  | _ => simp at ended

/-- A scan is aborted after a failure of its source, or after a malformed row. -/
theorem aborted_iff (past : Past malformed closed phase present rest) (rows : List Row)
    (kind : FaultKind) :
    phase = .aborted kind ↔ Ruined (rows.map Contact.row ++ rest) malformed kind := by
  have inside (e : Error) : .fetched (.error e) ∈ rows.map Contact.row ++ rest ↔
      .fetched (.error e) ∈ rest := Contact.mem_append rfl
  simp only [Ruined, inside]
  cases past with
  | running free _ => simp [free]
  | exhausted free _ => simp [free]
  | closed _ free _ => simp [free]
  | ended _ free _ => simp [free]
  | failed e _ told =>
      simp only [Phase.aborted.injEq, List.mem_cons, Contact.fetched.injEq, Except.error.injEq,
        reduceCtorEq, List.not_mem_nil, or_false, exists_eq_left]
      refine ⟨.inl, ?_⟩
      rintro (same | ⟨reported, rfl⟩)
      · exact same
      · exact told reported
  | malformed _ told => simp [told, eq_comm]

theorem over_of_closed (past : Past malformed closed phase present rest) (shut : closed) :
    phase = .closed ∨ ∃ kind, phase = .aborted kind := by
  cases past with
  | running _ free => exact absurd shut free
  | exhausted _ free => exact absurd shut free
  | closed _ _ _ => exact .inl rfl
  | ended _ _ _ => exact .inl rfl
  | failed _ _ _ => exact .inr ⟨_, rfl⟩
  | malformed _ _ => exact .inr ⟨_, rfl⟩

end Phase.Past

variable {σ ω : Type} [Source σ ω]

/-- The sink refuses none of its next messages, so many of them. -/
def Sink.Accepts (sink : Sink) (count : Nat) : Prop :=
  ∀ n < count, ∃ receipt, sink.answer n = .ok receipt

theorem Sink.accepts_succ {sink after : Sink} {message : Bytes} {receipt : Receipt}
    (offered : sink.offer message = (.ok receipt, after)) (count : Nat) :
    sink.Accepts (count + 1) ↔ after.Accepts count := by
  obtain ⟨first, later, -⟩ := of_offer offered
  constructor
  · intro accepts n inside
    rw [later]
    exact accepts (n + 1) (Nat.succ_lt_succ inside)
  · intro accepts n inside
    cases n with
    | zero => exact ⟨receipt, first.symm⟩
    | succ n =>
        rw [← later]
        exact accepts n (Nat.lt_of_succ_lt_succ inside)

theorem Message.kind_of_wrap {frame : Bytes} {e : Error} (failed : wrap frame = .error e) :
    e.kind = .usage := by
  unfold wrap at failed
  split at failed
  · cases failed
    rfl
  · cases failed

namespace Scan

variable {scan : Scan (Watched σ)} {world : ω × List Contact} {malformed closed : Prop}

/-- The phase of the scan accounts for all that its source was called for. -/
def Accounts {σ : Type} (scan : Scan σ) (log : List Contact) (malformed closed : Prop) : Prop :=
  ∃ (rows : List Row) (rest : List Contact), log = rows.map Contact.row ++ rest ∧
    scan.phase.Past malformed closed scan.source.isSome rest

omit [Source σ ω] in
theorem Accounts.of_iff {scan : Scan σ} {log : List Contact} {other : Prop}
    (accounts : scan.Accounts log malformed closed) (same : malformed ↔ other) :
    scan.Accounts log other closed := propext same ▸ accounts

theorem accounts_close (accounts : scan.Accounts world.2 malformed closed) {later : Prop}
    (shut : later) : (scan.close world).1.Accounts (scan.close world).2.2 malformed later := by
  obtain ⟨source, heading, room, held, phase, number⟩ := scan
  obtain ⟨rows, rest, log, past⟩ := accounts
  cases source with
  | none =>
      refine ⟨rows, rest, log, ?_⟩
      simp only [Option.isSome_none] at past
      cases past with
      | closed released free _ => exact .closed released free shut
      | ended released free _ => exact .ended released free shut
      | failed e released told => exact .failed e released told
      | malformed released told => exact .malformed released told
  | some source =>
      have longer : world.2 ++ [.released (Source.release source world).result] =
          rows.map Contact.row ++ (rest ++ [.released (Source.release source world).result]) := by
        rw [log, List.append_assoc]
      refine ⟨rows, _, longer, ?_⟩
      simp only [Option.isSome_some] at past
      cases past with
      | running free _ => exact .closed _ free shut
      | exhausted free _ => exact .ended _ free shut

theorem accounts_encode (scan : Scan (Watched σ)) (running : scan.phase = .running)
    (present : scan.source.isSome = true) {rows : List Row}
    (log : world.2 = rows.map Contact.row) (free : ¬ malformed) (opened : ¬ closed) (row : Row)
    (buf : Buffer) :
    let turn := scan.encode row buf world
    turn.scan.Accounts turn.world.2 (malformed ∨ TellsMalformed turn.result) closed := by
  have still (held : Option Row) (number : Nat) {result : Except Error Bool}
      (well : ¬ TellsMalformed result) :
      Accounts { scan with held, rows := number } world.2 (malformed ∨ TellsMalformed result)
        closed := by
    refine ⟨rows, [], log.trans (List.append_nil _).symm, ?_⟩
    rw [running, present]
    exact .running (not_or_intro free well) opened
  refine encode_cases scan row buf world ?_ ?_ ?_
  · intro frame _
    exact still _ _ nofun
  · intro e _ retryable
    refine still _ _ fun kind => ?_
    have same : e.kind = .malformed := (e.kind_ofRow row).symm.trans kind
    rw [Error.retryable, same] at retryable
    cases retryable
  · intro e refused fatal
    have kind : e.kind = .malformed := congrArg Fault.kind (Write.fault_of_putRow refused fatal)
    obtain ⟨source, heading, room, held, phase, number⟩ := scan
    cases source with
    | none => cases present
    | some source =>
        refine ⟨rows, _, congrArg (· ++ _) log, ?_⟩
        rw [kind]
        exact .malformed _ (.inr ((e.kind_ofRow row).trans kind))

theorem accounts_writeNext (accounts : scan.Accounts world.2 malformed closed) (buf : Buffer) :
    let turn := scan.writeNext buf world
    turn.scan.Accounts turn.world.2 (malformed ∨ TellsMalformed turn.result) closed := by
  have same {result : Except Error Bool} (well : ¬ TellsMalformed result) :
      scan.Accounts world.2 (malformed ∨ TellsMalformed result) closed := by
    rwa [or_iff_left well]
  obtain ⟨rows, rest, log, past⟩ := accounts
  -- Only a running scan asks its source, and so far it has been given nothing but rows.
  have opened (running : scan.phase = .running) :
      world.2 = rows.map Contact.row ∧ ¬ malformed ∧ ¬ closed := by
    rw [running] at past
    generalize scan.source.isSome = present at past
    cases past with
    | running free opened => exact ⟨log.trans (List.append_nil _), free, opened⟩
  refine writeNext_cases scan buf world ?_ ?_ ?_ ?_ ?_ ?_ ?_
  · intro finished
    exact same nofun
  · intro after aborted
    exact same nofun
  · intro running released
    rw [running, released] at past
    cases past
  · intro source row running present held
    obtain ⟨log, free, unclosed⟩ := opened running
    exact accounts_encode { scan with held := none } running
      (congrArg Option.isSome present) log free unclosed row buf
  · intro source row running present unheld fetched
    obtain ⟨log, free, unclosed⟩ := opened running
    have longer : (Source.fetch source world).world.2 = (rows ++ [row]).map Contact.row := by
      rw [List.map_append, ← log, Watched.log_fetch, fetched]
      rfl
    exact accounts_encode { scan with source := some (Source.fetch source world).source } running
      rfl longer free unclosed row buf
  · intro source running present unheld fetched
    obtain ⟨log, free, unclosed⟩ := opened running
    refine ⟨rows, [.fetched (.ok none)], ?_, .exhausted (not_or_intro free nofun) unclosed⟩
    rw [← log, Watched.log_fetch, fetched]
  · intro source e running present unheld fetched
    obtain ⟨log, free, unclosed⟩ := opened running
    let after := Source.fetch source world
    let released := (Source.release after.source after.world).result
    have longer : after.world.2 ++ [.released released] =
        rows.map Contact.row ++ [.fetched (.error e), .released released] := by
      rw [Watched.log_fetch, fetched, log, List.append_assoc]
      rfl
    exact ⟨rows, _, longer, .failed e _ fun reported => reported.resolve_left free⟩

theorem accounts_deliverRows (accounts : scan.Accounts world.2 malformed closed) (sink : Sink)
    (tally : Tally) :
    let sent := scan.deliverRows sink world tally
    ∃ offered, sent.sink.offered = sink.offered ++ offered ∧
      sent.scan.Accounts sent.world.2
        (malformed ∨ TellsMalformed sent.result ∧ sink.Accepts offered.length) closed := by
  have step : ∀ {scan : Scan (Watched σ)} {world turn} {malformed : Prop},
      scan.writeNext scan.freshBuf world = turn → scan.Accounts world.2 malformed closed →
      turn.scan.Accounts turn.world.2 (malformed ∨ TellsMalformed turn.result) closed := by
    rintro scan world turn malformed rfl accounts
    exact accounts_writeNext accounts scan.freshBuf
  -- A failure that comes after the row was written is none of the scan's.
  have quiet : ∀ {scan : Scan (Watched σ)} {world turn more} {malformed told : Prop},
      scan.writeNext scan.freshBuf world = turn → turn.result = .ok more → ¬ told →
      scan.Accounts world.2 malformed closed →
      turn.scan.Accounts turn.world.2 (malformed ∨ told) closed := by
    intro scan world turn more malformed told asked given well accounts
    have none : ¬ TellsMalformed (.ok more : Except Error Bool) := id
    have after := step asked accounts
    rw [given, or_iff_left none] at after
    rwa [or_iff_left well]
  have refuses : ∀ {sink after : Sink} {message e},
      sink.offer message = (.error e, after) → ¬ sink.Accepts 1 := by
    intro sink after message e offered accepts
    obtain ⟨receipt, accepted⟩ := accepts 0 Nat.one_pos
    cases accepted.symm.trans (Sink.of_offer offered).1.symm
  revert accounts
  refine deliverRows_induct
    (motive := fun scan sink world _ sent => ∀ {malformed : Prop},
      scan.Accounts world.2 malformed closed →
        ∃ offered, sent.sink.offered = sink.offered ++ offered ∧
          sent.scan.Accounts sent.world.2
            (malformed ∨ TellsMalformed sent.result ∧ sink.Accepts offered.length) closed)
    ?_ ?_ ?_ ?_ ?_ ?_ scan sink world tally
  · intro scan sink world tally turn e asked failed malformed accounts
    have all : sink.Accepts ([] : List Bytes).length := nofun
    have after := step asked accounts
    rw [failed] at after
    refine ⟨[], (List.append_nil _).symm, ?_⟩
    rwa [and_iff_left all]
  · intro scan sink world tally turn asked ended malformed accounts
    refine ⟨[Message.endMark], (Sink.of_offer rfl).2.2, quiet asked ended ?_ accounts⟩
    rcases offered : sink.offer Message.endMark with ⟨e | _ | _, after⟩
    · exact fun told => refuses offered told.2
    · exact And.left
    · exact And.left
  · intro scan sink world tally turn e asked written unwrapped malformed accounts
    refine ⟨[], (List.append_nil _).symm, quiet asked written (fun told => ?_) accounts⟩
    cases (Message.kind_of_wrap unwrapped).symm.trans told.1
  · intro scan sink world tally turn message e after asked written _ offered malformed accounts
    exact ⟨[message], (Sink.of_offer offered).2.2,
      quiet asked written (fun told => refuses offered told.2) accounts⟩
  · intro scan sink world tally turn message after asked written _ offered malformed accounts
    exact ⟨[message], (Sink.of_offer offered).2.2, quiet asked written And.left accounts⟩
  · intro scan sink world tally turn message after asked written _ offered ih malformed accounts
    have kept := quiet asked written id accounts
    rw [or_false] at kept
    obtain ⟨rest, log, accounts⟩ := ih kept
    refine ⟨message :: rest, ?_, ?_⟩
    · rw [log, (Sink.of_offer offered).2.2, List.append_assoc]
      rfl
    · rwa [List.length_cons, Sink.accepts_succ offered]

end Scan

/-- Whether a call has told of a malformed failure of the scan. Where the sink of a delivery
refuses a message, the failure is the sink's. -/
def Call.TellsMalformed : Call → Answer → Prop
  | .next, .frame result => TupleWire.TellsMalformed result
  | .writeNext _, .written result _ => TupleWire.TellsMalformed result
  | .deliver answers, .delivered result messages =>
      TupleWire.TellsMalformed result ∧ Sink.Accepts { answers } messages.length
  | _, _ => False

namespace Handle

def dialogue (handle : Handle σ ω) (calls : List Call) : List (Call × Answer) :=
  calls.zip (handle.run calls).1

theorem calls_dialogue (handle : Handle σ ω) (calls : List Call) :
    (handle.dialogue calls).map Prod.fst = calls := by
  induction calls generalizing handle with
  | nil => rfl
  | cons call calls ih => exact congrArg (call :: ·) (ih (handle.call call).2)

theorem dialogue_watched (handle : Handle σ ω) (calls : List Call) :
    handle.watched.dialogue calls = handle.dialogue calls :=
  congrArg (fun run : _ × Handle σ ω => calls.zip run.1) (handle.run_watched calls).symm

def MalformedIn (told : List (Call × Answer)) : Prop :=
  ∃ call answer, (call, answer) ∈ told ∧ call.TellsMalformed answer

theorem malformedIn_concat (told : List (Call × Answer)) (call : Call) (answer : Answer) :
    MalformedIn (told ++ [(call, answer)]) ↔ MalformedIn told ∨ call.TellsMalformed answer := by
  constructor
  · rintro ⟨first, given, member, tells⟩
    rcases List.mem_append.mp member with before | last
    · exact .inl ⟨first, given, before, tells⟩
    · cases List.mem_singleton.mp last
      exact .inr tells
  · rintro (⟨first, given, member, tells⟩ | tells)
    · exact ⟨first, given, List.mem_append_left _ member, tells⟩
    · exact ⟨call, answer, List.mem_append_right _ (List.mem_singleton_self _), tells⟩

/-- What the source was called for is accounted for by the scan, or was when it was dropped. -/
def Accounts (handle : Handle (Watched σ) (ω × List Contact)) (told : List (Call × Answer)) :
    Prop :=
  match handle.scan with
  | none => ∃ (last : Scan (Watched σ)) (malformed : Prop),
      last.source = none ∧ last.Accounts handle.world.2 malformed True
  | some scan => scan.Accounts handle.world.2 (MalformedIn told)
      ((told.map Prod.fst).any Call.closes = true)

variable {told : List (Call × Answer)}

theorem accounts_call {handle : Handle (Watched σ) (ω × List Contact)}
    (accounts : handle.Accounts told) (call : Call) :
    (handle.call call).2.Accounts (told ++ [(call, (handle.call call).1)]) := by
  obtain ⟨scan, world⟩ := handle
  cases scan with
  | none =>
      cases call with
      | _ => exact accounts
  | some scan =>
      have extended {last : Scan (Watched σ)} {log : List Contact} {call : Call} {answer : Answer}
          (accounts : last.Accounts log (MalformedIn told ∨ call.TellsMalformed answer)
            (((told.map Prod.fst).any Call.closes || call.closes) = true)) :
          last.Accounts log (MalformedIn (told ++ [(call, answer)]))
            (((told ++ [(call, answer)]).map Prod.fst).any Call.closes = true) := by
        rw [malformedIn_concat]
        simpa using accounts
      have shut : ((told.map Prod.fst).any Call.closes || true) = true := Bool.or_true _
      cases call with
      | next =>
          have after := Scan.accounts_writeNext accounts scan.freshBuf
          rw [← Bool.or_false (List.any _ _)] at after
          exact extended (after.of_iff (or_congr_right (tellsMalformed_map _ _).symm))
      | writeNext buf =>
          have after := Scan.accounts_writeNext accounts buf
          rw [← Bool.or_false (List.any _ _)] at after
          exact extended after
      | close =>
          have after := Scan.accounts_close accounts shut
          exact extended (after.of_iff (or_iff_left id).symm)
      | deliver answers =>
          obtain ⟨offered, log, rows⟩ := Scan.accounts_deliverRows accounts { answers } {}
          have after := Scan.accounts_close rows shut
          rw [← List.nil_append offered, ← log] at after
          exact extended after
      | drop =>
          have after := Scan.accounts_close accounts trivial
          exact ⟨(scan.close world).1, MalformedIn told, rfl, after⟩

theorem accounts_dialogue {handle : Handle (Watched σ) (ω × List Contact)}
    (accounts : handle.Accounts told) (calls : List Call) :
    (handle.run calls).2.Accounts (told ++ handle.dialogue calls) := by
  induction calls generalizing handle told with
  | nil => exact (List.append_nil told).symm ▸ accounts
  | cons call calls ih =>
      have rest := ih (accounts_call accounts call)
      rw [List.append_assoc] at rest
      exact rest

/-- After any calls the scan accounts for all that its source was called for. -/
theorem accounts_run (source : σ) (world : ω) (heading : Heading) (room : Nat)
    (calls : List Call) :
    let handle : Handle σ ω := ⟨some (Scan.start source heading room), world⟩
    (handle.watched.run calls).2.Accounts (handle.dialogue calls) := by
  intro handle
  have untold : ¬ MalformedIn [] := by
    rintro ⟨_, _, ⟨⟩, _⟩
  have first : handle.watched.Accounts [] := ⟨[], [], rfl, .running untold nofun⟩
  have accounts := accounts_dialogue first calls
  rwa [List.nil_append, dialogue_watched] at accounts

end Handle

end TupleWire
