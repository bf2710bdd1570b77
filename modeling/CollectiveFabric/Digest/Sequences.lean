import CollectiveFabric.Digest.Canonical

/-!
# Sequences of typed writes and reads

The calls of writer and reader come in the same types. What a sequence of
writes appends, the reads of its types take back, one after another; and
whatever is read of whatever data, the reader stays inside it, and so does
every view it returns.
-/

namespace CollectiveFabric

/-- The types `CanonicalWriter` writes and `CanonicalReader` reads. -/
inductive Wire where
  | u8 | u16 | u32 | u64 | i32 | i64 | boolean | bytes | string
deriving DecidableEq

namespace Wire

abbrev Value : Wire → Type
  | .u8 => UInt8
  | .u16 => UInt16
  | .u32 => UInt32
  | .u64 => UInt64
  | .i32 => Int32
  | .i64 => Int64
  | .boolean => Bool
  | .bytes => Bytes
  | .string => Bytes

/-- The writer's call of a type. -/
def write : (t : Wire) → CanonicalWriter → t.Value → CanonicalWriter
  | .u8, w, v => w.u8 v
  | .u16, w, v => w.u16 v
  | .u32, w, v => w.u32 v
  | .u64, w, v => w.u64 v
  | .i32, w, v => w.i32 v
  | .i64, w, v => w.i64 v
  | .boolean, w, v => w.boolean v
  | .bytes, w, v => w.bytes v
  | .string, w, v => w.string v

/-- The reader's call of a type. -/
def read : (t : Wire) → CanonicalReader → Option t.Value × CanonicalReader
  | .u8, r => r.u8
  | .u16, r => r.u16
  | .u32, r => r.u32
  | .u64, r => r.u64
  | .i32, r => r.i32
  | .i64, r => r.i64
  | .boolean, r => r.boolean
  | .bytes, r => r.bytes
  | .string, r => r.string

/-- The bytes a call of the writer appends. -/
def encoding : (t : Wire) → t.Value → List UInt8
  | .u8, v => [v]
  | .u16, v => CanonicalWriter.beBytes v.toUInt64 2
  | .u32, v => CanonicalWriter.beBytes v.toUInt64 4
  | .u64, v => CanonicalWriter.beBytes v 8
  | .i32, v => CanonicalWriter.beBytes v.toUInt32.toUInt64 4
  | .i64, v => CanonicalWriter.beBytes v.toUInt64 8
  | .boolean, v => [if v then 1 else 0]
  | .bytes, v => CanonicalWriter.beBytes v.size 8 ++ v.toList
  | .string, v => CanonicalWriter.beBytes v.size 8 ++ v.toList

theorem write_buf (t : Wire) (w : CanonicalWriter) (v : t.Value) :
    (t.write w v).buf = w.buf ++ t.encoding v := by
  cases t with
  | bytes => exact CanonicalWriter.string_buf w v
  | string => exact CanonicalWriter.string_buf w v
  | _ => rfl

/-- **The read of a type takes the write of the type.** -/
theorem takes_read (t : Wire) (v : t.Value) :
    CanonicalReader.Takes t.read (t.encoding v) v := by
  cases t with
  | u8 => exact CanonicalReader.takes_u8 v
  | u16 => exact CanonicalReader.takes_u16 v
  | u32 => exact CanonicalReader.takes_u32 v
  | u64 => exact CanonicalReader.takes_u64 v
  | i32 => exact CanonicalReader.takes_i32 v
  | i64 => exact CanonicalReader.takes_i64 v
  | boolean => exact CanonicalReader.takes_boolean v
  | bytes => exact CanonicalReader.takes_bytes v
  | string => exact CanonicalReader.takes_string v

end Wire

open Wire CanonicalReader

/-! ## What is written is read back -/

/-- The calls of a writer, in turn. -/
def writes (calls : List (Σ t : Wire, t.Value)) : CanonicalWriter :=
  calls.foldl (fun w call => call.1.write w call.2) {}

/-- The calls of a reader, in turn: what each of them returns, and the
reader after the last. A failed call does not end the sequence. -/
def reads (r : CanonicalReader) :
    List Wire → List (Σ t : Wire, Option t.Value) × CanonicalReader
  | [] => ([], r)
  | t :: ts =>
    let (v, r') := t.read r
    let (vs, r'') := reads r' ts
    (⟨t, v⟩ :: vs, r'')

theorem writes_buf (calls : List (Σ t : Wire, t.Value)) :
    (writes calls).buf = calls.flatMap fun call => call.1.encoding call.2 :=
  CanonicalWriter.foldl_buf (fun w call => write_buf call.1 w call.2) calls {}

/-- Reading goes through the encodings one after another. -/
theorem reads_encodings (calls : List (Σ t : Wire, t.Value)) {r : CanonicalReader}
    {suffix : List UInt8}
    (h : r.rest = (calls.flatMap fun call => call.1.encoding call.2) ++ suffix) :
    ∃ r', reads r (calls.map Sigma.fst) = (calls.map fun call => ⟨call.1, some call.2⟩, r') ∧
      r'.rest = suffix := by
  induction calls generalizing r with
  | nil => exact ⟨r, rfl, h⟩
  | cons call calls ih =>
    rw [List.flatMap_cons, List.append_assoc] at h
    obtain ⟨r₁, hread, hrest⟩ := takes_read call.1 call.2 r _ h
    obtain ⟨r₂, hreads, hrest'⟩ := ih hrest
    refine ⟨r₂, ?_, hrest'⟩
    rw [List.map_cons, reads, hread]
    simp only [hreads, List.map_cons]

/-! ## The reader stays inside its data -/

namespace CanonicalReader

theorem readBe_data (w : ℕ) (r : CanonicalReader) (n : ℕ) : (r.readBe w n).2.data = r.data := by
  rw [readBe]
  split_ifs <;> rfl

theorem u8_data (r : CanonicalReader) : r.u8.2.data = r.data := by
  rw [u8]
  split_ifs <;> rfl

theorem u32_data (r : CanonicalReader) : r.u32.2.data = r.data := readBe_data 32 r 4

theorem u64_data (r : CanonicalReader) : r.u64.2.data = r.data := readBe_data 64 r 8

theorem bytes_data (r : CanonicalReader) : r.bytes.2.data = r.data := by
  have hlength := u64_data r
  rw [bytes]
  split
  · next heq => rwa [heq] at hlength
  · next heq =>
    rw [heq] at hlength
    split_ifs
    · exact hlength
    · exact hlength

end CanonicalReader

namespace Wire

/-- **A read leaves the data as it is**, whether it succeeds or fails. -/
theorem read_data (t : Wire) (r : CanonicalReader) : (t.read r).2.data = r.data := by
  cases t with
  | u8 => exact u8_data r
  | u16 => exact readBe_data 16 r 2
  | u32 => exact u32_data r
  | u64 => exact u64_data r
  | i32 =>
    have h := u32_data r
    rw [read, CanonicalReader.i32]
    split <;> (next heq => rwa [heq] at h)
  | i64 =>
    have h := u64_data r
    rw [read, CanonicalReader.i64]
    split <;> (next heq => rwa [heq] at h)
  | boolean =>
    have h := u8_data r
    rw [read, CanonicalReader.boolean]
    split <;> (next heq => rwa [heq] at h)
  | bytes => exact bytes_data r
  | string => exact bytes_data r

/-- **The view a call returns lies inside the data**, right behind the
eight bytes of its length. Other types return no view. -/
def Inside (r : CanonicalReader) : (t : Wire) → t.Value → Prop
  | .bytes, v | .string, v =>
    r.pos + 8 + v.toList.length ≤ r.data.length ∧
      (r.data.drop (r.pos + 8)).take v.toList.length = v.toList
  | _, _ => True

/-- A byte string that is read stands behind its length. -/
theorem inside_of_bytes {r : CanonicalReader} {v : Bytes} (h : r.bytes.1 = some v) :
    Inside r .bytes v := by
  obtain ⟨bs, rfl, hrest, -⟩ := gives_bytes r v r.bytes.2 (Prod.ext h rfl)
  have hlength : (CanonicalWriter.beBytes v.size 8).length = 8 := beBytes_length v.size le_rfl
  have hdrop : r.data.drop (r.pos + 8) = v.toList ++ r.bytes.2.rest := by
    rw [← List.drop_drop]
    show r.rest.drop 8 = _
    rw [hrest, List.append_assoc, List.drop_left' hlength]
  refine ⟨?_, by rw [hdrop, List.take_left]⟩
  have hcount := congrArg List.length hrest
  have hpos := r.pos_le
  rw [rest, List.length_drop, List.length_append, List.length_append, hlength] at hcount
  omega

theorem inside_of_read {t : Wire} {r : CanonicalReader} {v : t.Value}
    (h : (t.read r).1 = some v) : Inside r t v := by
  cases t with
  | bytes => exact inside_of_bytes h
  | string => exact inside_of_bytes h
  | _ => trivial

end Wire

theorem reads_data (ts : List Wire) (r : CanonicalReader) : (reads r ts).2.data = r.data := by
  induction ts generalizing r with
  | nil => rfl
  | cons t ts ih => exact (ih _).trans (read_data t r)

/-- **Typed writes read back, and no read leaves the data.** Every sequence
of writes, followed by anything, is read back by the reads of its types,
which all succeed and stop where the writes ended. After any sequence of
reads of any data, successful or not, the position is inside the data, and
so is the view the next read returns. -/
theorem typed_round_trip :
    (∀ (calls : List (Σ t : Wire, t.Value)) (suffix : List UInt8),
      ∃ r, reads (ofData ((writes calls).buf ++ suffix)) (calls.map Sigma.fst) =
          (calls.map fun call => ⟨call.1, some call.2⟩, r) ∧
        r.pos = (writes calls).buf.length ∧ r.rest = suffix) ∧
      ∀ (data : List UInt8) (ts : List Wire), ∃ r, (reads (ofData data) ts).2 = r ∧
        r.data = data ∧ r.pos ≤ data.length ∧
          ∀ (t : Wire) (v : t.Value), (t.read r).1 = some v → t.Inside r v := by
  constructor
  · intro calls suffix
    have hstart : (ofData ((writes calls).buf ++ suffix)).rest =
        (calls.flatMap fun call => call.1.encoding call.2) ++ suffix := by
      rw [← writes_buf]
      rfl
    obtain ⟨r, hreads, hrest⟩ := reads_encodings calls hstart
    refine ⟨r, hreads, ?_, hrest⟩
    have hdata : r.data = (writes calls).buf ++ suffix := by
      have hdata := reads_data (calls.map Sigma.fst) (ofData ((writes calls).buf ++ suffix))
      rwa [hreads] at hdata
    have hcount := congrArg List.length hrest
    have hpos := r.pos_le
    rw [rest, List.length_drop] at hcount
    rw [hdata, List.length_append] at hcount hpos
    omega
  · intro data ts
    have hdata : (reads (ofData data) ts).2.data = data := reads_data ts (ofData data)
    refine ⟨_, rfl, hdata, ?_, fun t v => inside_of_read⟩
    have hpos := (reads (ofData data) ts).2.pos_le
    rwa [hdata] at hpos

end CollectiveFabric
