import AcflyRos.Foundation.Framing
import AcflyRos.Foundation.Sequences
import AcflyRos.OdinDriver.DataLogger

/-! # The format of the recordings

The driver records images, clouds, poses, rotations and IMU samples as blobs of machine words
(`publishRgb`, `publishPC2XYZRGBA`, `publishOdometry`, `recordrotate`, `publishImu`), which a
writer puts into a file one after the other, with nothing between them. Words are in the byte
order of the machine, which is taken to be little-endian; of a floating-point number only the
bits matter. The file can be read back, also when it was cut off.
-/

namespace AcflyRos.OdinDriver.RecordFormat

open AcflyRos.Transition AcflyRos.Framing AcflyRos.Sequences AcflyRos.OdinDriver.DataLogger

/-! ## Blobs -/

/-- `append_pod` -/
def appendPod (size : Nat) (value : BitVec (8 * size)) : List UInt8 :=
  (Code.littleEndian size value.toNat).toList

/-- A point as it is recorded: `XYZRGBA`. -/
structure CloudPoint where
  xyz : List.Vector (BitVec 32) 3
  rgba : List.Vector UInt8 4
  deriving DecidableEq

def CloudPoint.blob (point : CloudPoint) : List UInt8 :=
  point.xyz.toList.flatMap (appendPod 4) ++ point.rgba.toList

/-- An index, a time stamp and so many items, the number of which fits into a `uint32_t`. -/
structure Counted (α : Type) where
  index : BitVec 32
  stamp : BitVec 64
  items : List α
  small : items.length < 2 ^ 32
  deriving DecidableEq

def Counted.blob {α : Type} (item : α → List UInt8) (record : Counted α) : List UInt8 :=
  appendPod 4 record.index ++ (appendPod 8 record.stamp ++
    (appendPod 4 (BitVec.ofNat 32 record.items.length) ++ record.items.flatMap item))

/-- `enqueueImageFrame`: the items are the bytes of the JPEG. -/
def imageBlob (record : Counted UInt8) : List UInt8 := record.blob fun byte => [byte]

/-- `enqueuePointCloudFrame` -/
def cloudBlob (record : Counted CloudPoint) : List UInt8 := record.blob CloudPoint.blob

/-- An index, a time stamp and an array of floats. -/
structure Arrayed (size : Nat) where
  index : BitVec 32
  stamp : BitVec 64
  values : List.Vector (BitVec 32) size
  deriving DecidableEq

def Arrayed.blob {size : Nat} (record : Arrayed size) : List UInt8 :=
  appendPod 4 record.index ++ (appendPod 8 record.stamp ++
    record.values.toList.flatMap (appendPod 4))

/-- `enqueuePoseFrame`: position and orientation. -/
def poseBlob (record : Arrayed 7) : List UInt8 := record.blob

/-- `enqueueRotateFrame`: the orientation. -/
def rotateBlob (record : Arrayed 4) : List UInt8 := record.blob

/-- An IMU sample has no index. -/
structure ImuRecord where
  stamp : BitVec 64
  values : List.Vector (BitVec 32) 6
  deriving DecidableEq

/-- `enqueueIMUFrame`: acceleration and angular velocity. -/
def imuBlob (record : ImuRecord) : List UInt8 :=
  appendPod 8 record.stamp ++ record.values.toList.flatMap (appendPod 4)

/-! ## Reading them back -/

/-- The format of a file: a code for the blobs of its records. -/
structure Format (α : Type) where
  blob : α → List UInt8
  code : Code α UInt8
  encode_eq : ∀ record, code.encode record = blob record
  blob_ne_nil : ∀ record, blob record ≠ []

theorem appendPod_ne_nil {size : Nat} (value : BitVec (8 * (size + 1))) :
    appendPod (size + 1) value ≠ [] := by
  simp [appendPod, Code.littleEndian]

/-- An array of floats. -/
def floats (size : Nat) : Code (List.Vector (BitVec 32) size) UInt8 :=
  (Code.word 4).repeated size

theorem encode_floats {size : Nat} (values : List.Vector (BitVec 32) size) :
    (floats size).encode values = values.toList.flatMap (appendPod 4) := by
  rw [floats, Code.encode_repeated]
  exact List.flatMap_congr fun value _ => Code.encode_word 4 value

def cloudPointCode : Code CloudPoint UInt8 :=
  (Code.sequence (floats 3) fun _ => Code.symbol.repeated 4).retract
    (fun point => ⟨point.xyz, point.rgba⟩) (fun pair => ⟨pair.1, pair.2⟩) fun _ => rfl

theorem encode_cloudPointCode (point : CloudPoint) :
    cloudPointCode.encode point = point.blob := by
  show (floats 3).encode point.xyz ++ (Code.symbol.repeated 4).encode point.rgba = _
  rw [encode_floats, Code.encode_repeated]
  exact congrArg _ (List.flatMap_singleton' _)

section Counted

variable {α : Type} (item : Code α UInt8)

/-- The length field says how many items follow. -/
def countedCode : Code (Counted α) UInt8 :=
  (Code.sequence (Code.word 4) fun _ => Code.sequence (Code.word 8) fun _ =>
      Code.sequence (Code.word 4) fun count => item.repeated count.toNat).retract
    (fun record => ⟨record.index, record.stamp, BitVec.ofNat 32 record.items.length,
      record.items, by rw [BitVec.toNat_ofNat, Nat.mod_eq_of_lt record.small]⟩)
    (fun fields => ⟨fields.1, fields.2.1, fields.2.2.2.toList, by
      rw [List.Vector.toList_length]
      exact fields.2.2.1.isLt⟩)
    fun _ => rfl

theorem encode_countedCode (record : Counted α) :
    (countedCode item).encode record = record.blob item.encode := by
  show (Code.word 4).encode _ ++ ((Code.word 8).encode _ ++ ((Code.word 4).encode _ ++
    (item.repeated _).encode _)) = _
  rw [Code.encode_word, Code.encode_word, Code.encode_word, Code.encode_repeated]
  rfl

theorem blob_ne_nil_of_counted (bytes : α → List UInt8) (record : Counted α) :
    record.blob bytes ≠ [] :=
  List.append_ne_nil_of_left_ne_nil (appendPod_ne_nil _) _

end Counted

def imageFormat : Format (Counted UInt8) where
  blob := imageBlob
  code := countedCode Code.symbol
  encode_eq := encode_countedCode Code.symbol
  blob_ne_nil := blob_ne_nil_of_counted _

def cloudFormat : Format (Counted CloudPoint) where
  blob := cloudBlob
  code := countedCode cloudPointCode
  encode_eq record := by
    rw [encode_countedCode, funext encode_cloudPointCode]
    rfl
  blob_ne_nil := blob_ne_nil_of_counted _

def arrayedFormat (size : Nat) : Format (Arrayed size) where
  blob := Arrayed.blob
  code := (Code.sequence (Code.word 4) fun _ => Code.sequence (Code.word 8) fun _ =>
      floats size).retract (fun record => ⟨record.index, record.stamp, record.values⟩)
    (fun fields => ⟨fields.1, fields.2.1, fields.2.2⟩) fun _ => rfl
  encode_eq record := by
    show (Code.word 4).encode _ ++ ((Code.word 8).encode _ ++ (floats size).encode _) = _
    rw [Code.encode_word, Code.encode_word, encode_floats]
    rfl
  blob_ne_nil _ := List.append_ne_nil_of_left_ne_nil (appendPod_ne_nil _) _

def poseFormat : Format (Arrayed 7) := { arrayedFormat 7 with blob := poseBlob }

def rotateFormat : Format (Arrayed 4) := { arrayedFormat 4 with blob := rotateBlob }

def imuFormat : Format ImuRecord where
  blob := imuBlob
  code := (Code.sequence (Code.word 8) fun _ => floats 6).retract
    (fun record => ⟨record.stamp, record.values⟩) (fun fields => ⟨fields.1, fields.2⟩) fun _ => rfl
  encode_eq record := by
    show (Code.word 8).encode _ ++ (floats 6).encode _ = _
    rw [Code.encode_word, encode_floats]
    rfl
  blob_ne_nil _ := List.append_ne_nil_of_left_ne_nil (appendPod_ne_nil _) _

/-- A recording is readable wherever it is cut off: what is read back from any beginning of the file
are the first records that were enqueued, all of those that are there in full, and once the worker
has ended, the whole file has every record that was enqueued before `shutdown`. -/
theorem recording_readable {α : Type} (format : Format α) (batchSize : Nat) (labels : List Label)
    (records : List α) (bytes : List UInt8)
    (hrecords : (run Writer.step (Writer.start batchSize []) labels).enqueued =
      records.map format.blob)
    (hcut : bytes <+: (run Writer.step (Writer.start batchSize []) labels).file) :
    ∃ count tail, format.code.parseAll bytes = (records.take count, tail) ∧
      bytes = (records.take count).flatMap format.blob ++ tail ∧
      (∀ whole ≤ records.length, (records.take whole).flatMap format.blob <+: bytes →
        whole ≤ count) ∧
      (bytes = (run Writer.step (Writer.start batchSize []) labels).file →
        (run Writer.step (Writer.start batchSize []) labels).worker = .finished →
        ∃ frames, (run Writer.step (Writer.start batchSize []) labels).closing = some frames ∧
          frames.length ≤ count) := by
  obtain ⟨done, henqueued, hfile, hfinished⟩ := (Writer.Sound.run batchSize [] labels).written
  rw [hfile, List.nil_append] at hcut ⊢
  -- The frames that were written first are the blobs of the first records.
  have hdone := take_of_map_prefix
    (hrecords ▸ henqueued ▸ List.prefix_append done _ : done <+: records.map format.blob)
  have hencode : format.code.encode = format.blob := funext format.encode_eq
  have hflatten : done.flatten = (records.take done.length).flatMap format.blob := by
    rw [List.flatMap_def, ← hdone]
  have hsymbols : bytes <+: records.flatMap format.code.encode := by
    rw [hencode]
    refine (hflatten ▸ hcut).trans ?_
    conv_rhs => rw [← List.take_append_drop done.length records, List.flatMap_append]
    exact List.prefix_append _ _
  have hne : ∀ record, format.code.encode record ≠ [] := fun record =>
    format.encode_eq record ▸ format.blob_ne_nil record
  obtain ⟨count, tail, hparsed, htail, hmost⟩ := Code.parseFor_prefix hne hsymbols (Nat.le_refl _)
  rw [hencode] at htail hmost
  refine ⟨count, tail, hparsed, htail, hmost, fun hwhole hworker => ?_⟩
  obtain ⟨frames, hclosing, hframes⟩ := hfinished hworker
  have hlength : done.length ≤ records.length := by
    simpa using congrArg List.length hdone
  refine ⟨frames, hclosing, hframes.length_le.trans (hmost done.length hlength ?_)⟩
  rw [hwhole, hflatten]

theorem recording_readable_two :
    let writer := run Writer.step (Writer.start 1 [])
      [.openFile true, .enqueue (rotateBlob ⟨3, 5, List.Vector.replicate 4 7⟩), .work, .work,
        .enqueue (rotateBlob ⟨4, 6, List.Vector.replicate 4 8⟩), .shutdown, .notify, .work,
        .work, .work, .work, .work, .work]
    ∃ count tail, rotateFormat.code.parseAll writer.file =
        (([⟨3, 5, List.Vector.replicate 4 7⟩, ⟨4, 6, List.Vector.replicate 4 8⟩] :
          List (Arrayed 4)).take count, tail) ∧
      ∃ frames, writer.closing = some frames ∧ frames.length ≤ count :=
  have h := recording_readable rotateFormat 1
    [.openFile true, .enqueue (rotateBlob ⟨3, 5, List.Vector.replicate 4 7⟩), .work, .work,
      .enqueue (rotateBlob ⟨4, 6, List.Vector.replicate 4 8⟩), .shutdown, .notify, .work,
      .work, .work, .work, .work, .work]
    [⟨3, 5, List.Vector.replicate 4 7⟩, ⟨4, 6, List.Vector.replicate 4 8⟩] _ (by decide)
    List.prefix_rfl
  ⟨h.choose, h.choose_spec.choose, h.choose_spec.choose_spec.1,
    h.choose_spec.choose_spec.2.2.2 rfl (by decide)⟩

end AcflyRos.OdinDriver.RecordFormat
