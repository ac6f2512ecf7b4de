import TupleWire.Proofs.Frame.Layout

/-! Where a write stops for want of room. A frame is put piece by piece, and each piece is put
whole or not at all. The first piece for which there is no room ends the write, and the failure
tells where that piece should stand and how long it is. -/
namespace TupleWire

namespace Layout

/-- Of pieces that are put one behind the other into `room` bytes, the first that does not fit
has `need` bytes and should stand behind `reach` bytes. -/
inductive Stuck : (room : Nat) → List Bytes → (reach need : Nat) → Prop
  | here {room : Nat} {piece : Bytes} {rest : List Bytes} (full : room < piece.length) :
      Stuck room (piece :: rest) 0 piece.length
  | later {room reach need : Nat} {piece : Bytes} {rest : List Bytes} (fits : piece.length ≤ room)
      (behind : Stuck (room - piece.length) rest reach need) :
      Stuck room (piece :: rest) (piece.length + reach) need

namespace Stuck

variable {room reach need : Nat} {pieces more : List Bytes}

theorem bounds (h : Stuck room pieces reach need) :
    reach ≤ room ∧ room < reach + need ∧ reach + need ≤ pieces.flatten.length := by
  induction h with
  | here full =>
      rw [List.flatten_cons, List.length_append]
      omega
  | later fits behind ih =>
      rw [List.flatten_cons, List.length_append]
      omega

theorem append (h : Stuck room pieces reach need) (more : List Bytes) :
    Stuck room (pieces ++ more) reach need := by
  induction h with
  | here full => exact .here full
  | later fits behind ih => exact .later fits ih

theorem behind (fits : pieces.flatten.length ≤ room)
    (h : Stuck (room - pieces.flatten.length) more reach need) :
    Stuck room (pieces ++ more) (pieces.flatten.length + reach) need := by
  induction pieces generalizing room with
  | nil => simpa using h
  | cons piece pieces ih =>
      rw [List.flatten_cons, List.length_append] at fits h ⊢
      rw [Nat.add_assoc]
      refine .later (by omega) (ih (by omega) ?_)
      rwa [Nat.sub_sub]

theorem split (h : Stuck room (pieces ++ more) reach need) :
    Stuck room pieces reach need ∨ pieces.flatten.length ≤ room ∧
      ∃ later, reach = pieces.flatten.length + later ∧
        Stuck (room - pieces.flatten.length) more later need := by
  induction pieces generalizing room reach with
  | nil => exact .inr ⟨Nat.zero_le _, reach, by simp, by simpa using h⟩
  | cons piece pieces ih =>
      cases h with
      | here full => exact .inl (.here full)
      | later fits behind =>
          rcases ih behind with inside | ⟨small, later, rfl, stuck⟩
          · exact .inl (.later fits inside)
          · rw [List.flatten_cons, List.length_append]
            refine .inr ⟨by omega, later, by omega, ?_⟩
            rwa [← Nat.sub_sub]

end Stuck

theorem exists_stuck {room : Nat} {pieces : List Bytes} (full : room < pieces.flatten.length) :
    ∃ reach need, Stuck room pieces reach need := by
  induction pieces generalizing room with
  | nil => exact absurd full (Nat.not_lt_zero room)
  | cons piece pieces ih =>
      rw [List.flatten_cons, List.length_append] at full
      by_cases fits : piece.length ≤ room
      · have beyond : room - piece.length < pieces.flatten.length := by omega
        obtain ⟨reach, need, behind⟩ := ih beyond
        exact ⟨_, need, .later fits behind⟩
      · exact ⟨0, _, .here (Nat.not_le.mp fits)⟩

def framePieces (form : LengthForm) (pieces : List Bytes) : List Bytes :=
  (form.stored (wordSize + pieces.flatten.length)).toBytes :: pieces

def scalarPieces (data : Bytes) : List Bytes := framePieces .shifted [data]

def lengthPieces (items : List Bytes) : List Bytes :=
  items.map fun item => (LengthForm.raw.stored item.length).toBytes

def objectPieces (object : Object) : List Bytes :=
  framePieces .shifted ((Word.ofNat (object.size + objectMark)).toBytes ::
    (lengthPieces object.keys ++ (lengthPieces object.values ++ (object.keys ++ object.values))))

def valuePieces (row : Row) : Column → List Bytes
  | .rowKey => (row.key?.map scalarPieces).getD []
  | .family name => objectPieces ⟨row.entries name⟩
  | .leaf _ _ => []

/-- The padding is one piece, also where it is empty. -/
def columnPieces (pos : Nat) (row : Row) (column : Column) : List Bytes :=
  framePieces .raw (valuePieces row column ++
    [zeros (padding (pos + wordSize + (value row column).length) wordSize)])

def columnsPieces (row : Row) : (pos : Nat) → List Column → List Bytes
  | _, [] => []
  | pos, first :: rest =>
      columnPieces pos row first ++ columnsPieces row (pos + (column pos row first).length) rest

def rowPieces (pos : Nat) (row : Row) (list : List Column) : List Bytes :=
  framePieces .raw (columnsPieces row (pos + wordSize) list ++ [(0 : Word).toBytes])

theorem flatten_framePieces (form : LengthForm) (pieces : List Bytes) :
    (framePieces form pieces).flatten = frame form pieces.flatten := rfl

theorem flatten_lengthPieces (items : List Bytes) :
    (lengthPieces items).flatten = lengths items := rfl

theorem flatten_scalarPieces (data : Bytes) : (scalarPieces data).flatten = scalar data := by
  simp [scalarPieces, flatten_framePieces, scalar]

theorem flatten_objectPieces (object : Object) :
    (objectPieces object).flatten = Layout.object object := by
  simp only [objectPieces, flatten_framePieces, List.flatten_cons, List.flatten_append,
    flatten_lengthPieces, Layout.object, objectBody]

theorem flatten_valuePieces (row : Row) (column : Column) :
    (valuePieces row column).flatten = value row column := by
  cases column with
  | rowKey =>
      cases row with
      | nil => rfl
      | cons cell cells => exact flatten_scalarPieces cell.row
  | family name => exact flatten_objectPieces _
  | leaf family qualifier => rfl

theorem flatten_columnPieces (pos : Nat) (row : Row) (column : Column) :
    (columnPieces pos row column).flatten = Layout.column pos row column := by
  simp only [columnPieces, flatten_framePieces, List.flatten_append, flatten_valuePieces,
    List.flatten_singleton, Layout.column, payload]

theorem flatten_columnsPieces (row : Row) (pos : Nat) (list : List Column) :
    (columnsPieces row pos list).flatten = columns row pos list := by
  induction list generalizing pos with
  | nil => rfl
  | cons column list ih =>
      simp only [columnsPieces, List.flatten_append, flatten_columnPieces, ih, columns]

theorem flatten_rowPieces (pos : Nat) (row : Row) (list : List Column) :
    (rowPieces pos row list).flatten = Layout.row pos row list := by
  simp only [rowPieces, flatten_framePieces, List.flatten_append, flatten_columnsPieces,
    List.flatten_singleton, Layout.row]

end Layout

/-- What a buffer answers to a piece of `need` bytes that should stand behind `reach` further
bytes, and for which no room is left there. -/
def Buffer.refusal (buf : Buffer) (reach need : Nat) : Error :=
  { fault := .bufferFull need (buf.remaining - reach), offset := some (buf.size + reach) }

theorem Buffer.refusal_append (buf : Buffer) (data : Bytes) (reach need : Nat) :
    (buf.append data).refusal reach need = buf.refusal (data.length + reach) need := by
  simp only [refusal, remaining_append, size_append, Nat.sub_sub, Nat.add_assoc]

namespace Write

open Layout (Stuck)

variable {α β : Type}

theorem on_bind_error {write : Write α} {buf : Buffer} {e : Error}
    (failed : (write.on buf).1 = .error e) (f : α → Write β) :
    ((write >>= f).on buf).1 = .error e := by
  rw [on_bind]
  rcases given : write.on buf with ⟨result, next⟩
  rw [given] at failed
  cases failed
  rfl

theorem on_mapError_error {write : Write α} {buf : Buffer} {e : Error}
    (failed : (write.on buf).1 = .error e) (f : Error → Error) :
    ((write.mapError f).on buf).1 = .error (f e) := by
  rw [on_mapError, failed]
  rfl

theorem on_atomically_error {write : Write α} {buf : Buffer} {e : Error}
    (failed : (write.on buf).1 = .error e) : ((atomically write).on buf).1 = .error e := by
  rw [on_atomically]
  rcases given : write.on buf with ⟨result, next⟩
  rw [given] at failed
  cases failed
  rfl

theorem on_discard_error {write : Write α} {buf : Buffer} {e : Error}
    (failed : (write.on buf).1 = .error e) : ((discard write).on buf).1 = .error e := by
  rw [discard_eq]
  exact on_bind_error failed _

theorem framed_full {form : LengthForm} {write : Write Unit} {buf : Buffer}
    (full : ¬ wordSize ≤ buf.remaining) :
    ((framed form write).on buf).1 = .error (buf.refusal 0 wordSize) := by
  refine on_bind_error ?_ _
  rw [on_reserve, putWord, on_put, Word.length_toBytes, if_neg full]
  rfl

theorem framed_error {form : LengthForm} {write : Write Unit} {buf : Buffer} {e : Error}
    (room : wordSize ≤ buf.remaining)
    (failed : (write.on (buf.append (0 : Word).toBytes)).1 = .error e) :
    ((framed form write).on buf).1 = .error e := by
  rw [framed, on_bind, on_reserve, putWord, on_put, Word.length_toBytes, if_pos room]
  exact on_bind_error failed _

/-- From `buf` on, if the lengths in it are `valid`, the write puts these pieces and fails at
the first for which there is no room. -/
def Stalls (write : Write α) (buf : Buffer) (valid : Prop) (pieces : List Bytes) : Prop :=
  valid → ∀ ⦃reach need⦄, Stuck buf.remaining pieces reach need →
    (write.on buf).1 = .error (buf.refusal reach need)

namespace Stalls

variable {buf : Buffer} {valid next : Prop} {data : Bytes} {pieces more : List Bytes} {a : α}

theorem congr {write : Write α} (h : write.Stalls buf valid pieces) (weaker : next → valid) :
    write.Stalls buf next pieces :=
  fun holds => h (weaker holds)

theorem nothing (write : Write α) (buf : Buffer) (valid : Prop) : write.Stalls buf valid [] :=
  nofun

theorem put (buf : Buffer) (data : Bytes) : (Write.put data).Stalls buf True [data] := by
  intro _ reach need stuck
  cases stuck with
  | here full =>
      rw [on_put, if_neg (Nat.not_le.mpr full)]
      rfl
  | later fits behind => cases behind

/-- The first write lays its pieces whole, or it is the one that fails. -/
theorem bind {write : Write α} {f : α → Write β} (first : write.Stalls buf valid pieces)
    (laid : write.Lays buf valid data a) (whole : pieces.flatten.length = data.length)
    (second : (f a).Stalls (buf.append data) next more) :
    (write >>= f).Stalls buf (valid ∧ next) (pieces ++ more) := by
  intro both reach need stuck
  rcases stuck.split with inside | ⟨fits, later, rfl, behind⟩
  · exact on_bind_error (first both.1 inside) f
  · rw [whole] at fits behind ⊢
    rw [on_bind, laid.laid both.1 fits]
    rw [← Buffer.remaining_append] at behind
    exact (second both.2 behind).trans (congrArg _ (buf.refusal_append data later need))

theorem seq {write : Write Unit} {rest : Write β} (first : write.Stalls buf valid pieces)
    (laid : write.Lays buf valid data ()) (whole : pieces.flatten.length = data.length)
    (second : rest.Stalls (buf.append data) next more) :
    (do write; rest).Stalls buf (valid ∧ next) (pieces ++ more) :=
  first.bind laid whole second

theorem before {write : Write α} (h : write.Stalls buf valid pieces) (f : α → Write β) :
    (write >>= f).Stalls buf valid pieces :=
  fun holds _ _ stuck => on_bind_error (h holds stuck) f

theorem discard {write : Write α} (h : write.Stalls buf valid pieces) :
    (Functor.discard write).Stalls buf valid pieces :=
  fun holds _ _ stuck => on_discard_error (h holds stuck)

theorem atomically {write : Write α} (h : write.Stalls buf valid pieces) :
    (Write.atomically write).Stalls buf valid pieces :=
  fun holds _ _ stuck => on_atomically_error (h holds stuck)

theorem result_bind {f : α → Write β} {r : Except Error α} (holds : valid → r = .ok a)
    (rest : (f a).Stalls buf next pieces) :
    (result r >>= f).Stalls buf (valid ∧ next) pieces := by
  intro both reach need stuck
  rw [on_bind, on_result, holds both.1]
  exact rest both.2 stuck

theorem align (buf : Buffer) (n : Nat) :
    (Write.align n).Stalls buf True [Layout.zeros (padding buf.size n)] := by
  intro holds reach need stuck
  have failed := put buf _ holds stuck
  rw [on_align]
  rcases given : (Write.put (List.replicate (padding buf.size n) 0)).on buf with ⟨result, next⟩
  rw [Layout.zeros, given] at failed
  cases failed
  rfl

theorem forM {γ : Type} {f : γ → Write Unit} {holds : γ → Prop} {bytes : γ → Bytes}
    (laid : ∀ buf item, (f item).Lays buf (holds item) (bytes item) ())
    (each : ∀ buf item, (f item).Stalls buf (holds item) [bytes item]) (items : List γ)
    (buf : Buffer) :
    (items.forM f).Stalls buf (∀ item ∈ items, holds item) (items.map bytes) := by
  induction items generalizing buf with
  | nil => exact nothing _ buf _
  | cons item items ih =>
      have first := seq (each buf item) (laid buf item) (by simp) (ih (buf.append (bytes item)))
      exact first.congr (by simp)

theorem framed {form : LengthForm} {write : Write Unit}
    (inner : write.Stalls (buf.append (0 : Word).toBytes) valid pieces) :
    (Write.framed form write).Stalls buf valid (Layout.framePieces form pieces) := by
  intro holds reach need stuck
  cases stuck with
  | here full => exact framed_full (Nat.not_le.mpr full)
  | @later _ later _ _ _ fits behind =>
      rw [Word.length_toBytes] at fits behind ⊢
      have left : (buf.append (0 : Word).toBytes).remaining = buf.remaining - wordSize :=
        buf.remaining_append _
      rw [← left] at behind
      have failed := inner holds behind
      rw [Buffer.refusal_append] at failed
      exact framed_error fits failed

end Stalls

theorem stalls_putScalar (data : Bytes) (buf : Buffer) :
    (putScalar data).Stalls buf ((Layout.scalar data).length ≤ Limit.value)
      (Layout.scalarPieces data) := by
  have header := Stalls.put buf (LengthForm.shifted.stored (wordSize + data.length)).toBytes
  have body := (header.seq (Lays.put buf _) (by simp) ((Stalls.put _ data).before fun _ =>
    (Pure.pure (wordSize + data.length) : Write Nat))).atomically
  have pieces : Layout.scalarPieces data =
      [(LengthForm.shifted.stored (wordSize + data.length)).toBytes] ++ [data] := by
    simp [Layout.scalarPieces, Layout.framePieces]
  rw [pieces, Layout.scalar, Layout.length_frame]
  exact (Stalls.result_bind LengthForm.word_of_fits body).congr
    fun short => ⟨short, trivial, trivial⟩

theorem stalls_putLengths (items : List Bytes) (buf : Buffer) :
    (putLengths items).Stalls buf (∀ item ∈ items, LengthForm.raw.Fits item.length)
      (Layout.lengthPieces items) := by
  refine Stalls.forM (fun buf item => ?_) (fun buf item => ?_) items buf
  · exact (Lays.result_bind LengthForm.word_of_fits LengthForm.word_of_not_fits
      (Lays.put buf _)).congr (and_iff_left trivial)
  · exact (Stalls.result_bind LengthForm.word_of_fits (Stalls.put buf _)).congr
      fun fits => ⟨fits, trivial⟩

theorem stalls_putAll (items : List Bytes) (buf : Buffer) :
    (items.forM put).Stalls buf True items := by
  have each : (items.forM put).Stalls buf _ (items.map id) := Stalls.forM Lays.put Stalls.put items buf
  rw [List.map_id] at each
  exact each.congr (by simp)

theorem stalls_putObject (object : Object) (buf : Buffer) :
    (putObject object).Stalls buf ((Layout.object object).length ≤ Limit.value)
      (Layout.objectPieces object) := by
  intro short
  obtain ⟨few, keysFit, valuesFit⟩ := Layout.parts_fit short
  have count := Stalls.put (buf.append (0 : Word).toBytes)
    (Word.ofNat (object.size + objectMark)).toBytes
  have body : (putObjectBody object).Stalls _ _ _ :=
    count.seq (Lays.put _ _) (by simp)
      ((stalls_putLengths object.keys _).seq (lays_putLengths object.keys _)
        (by rw [Layout.flatten_lengthPieces])
        ((stalls_putLengths object.values _).seq (lays_putLengths object.values _)
          (by rw [Layout.flatten_lengthPieces])
          ((stalls_putAll object.keys _).seq (lays_putAll object.keys _) rfl
            (stalls_putAll object.values _))))
  rw [putObject_eq, if_neg (Nat.not_lt.mpr few)]
  exact body.framed.atomically ⟨trivial, keysFit, valuesFit, trivial, trivial⟩

theorem stalls_putValue (row : Row) (column : Column) (buf : Buffer) :
    (putValue row column).Stalls buf (Layout.Encodable row column)
      (Layout.valuePieces row column) := by
  cases column with
  | rowKey =>
      cases row with
      | nil => exact Stalls.nothing _ buf _
      | cons cell cells => exact (stalls_putScalar cell.row buf).discard.congr And.right
  | family name => exact (stalls_putObject ⟨row.entries name⟩ buf).discard.congr And.right
  | leaf name qualifier => exact Stalls.nothing _ buf _

theorem stalls_putColumn (row : Row) (column : Column) (buf : Buffer) :
    (putColumn row column).Stalls buf (Layout.Encodable row column)
      (Layout.columnPieces buf.size row column) := by
  have sizes : ((buf.append (0 : Word).toBytes).append (Layout.value row column)).size =
      buf.size + wordSize + (Layout.value row column).length := by
    rw [Buffer.size_append, Buffer.size_append, Word.length_toBytes]
  have pad := (Stalls.align ((buf.append (0 : Word).toBytes).append (Layout.value row column))
    wordSize).discard
  rw [sizes] at pad
  have payload := (stalls_putValue row column (buf.append (0 : Word).toBytes)).seq
    (lays_putValue row column _) (by rw [Layout.flatten_valuePieces]) pad
  rw [putColumn_eq]
  exact payload.framed.discard.congr fun holds => ⟨holds, trivial⟩

end Write

end TupleWire
