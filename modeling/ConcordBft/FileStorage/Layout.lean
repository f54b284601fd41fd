import ConcordBft.FileStorage
import Mathlib.Algebra.Order.BigOperators.Group.List
import Mathlib.Data.List.Pairwise

set_option autoImplicit false

/-! # What is where in a metadata file

`Stored` relates the file and the table of the records in memory to the objects that have been
written. The records of the array stand in the file in the order of the ids until their objects are
written, and an object's record is then written to the place that it has in the order of the array.
Opening the file gives the same table if no record is lost in this way (`Unmoved`). -/

namespace ConcordBft.FileStorage

open LittleEndian RandomAccess Checked MetadataObjectInfo OrderedMap List Function

/-! ## The layout -/

theorem map_id_objectInfos (ds : List ObjectDesc) (m o : ℕ) :
    (objectInfos ds m o).map (·.id) = ds.map (·.id) := by
  induction ds generalizing m o with
  | nil => rfl
  | cons d ds ih => simp [objectInfos, ih]

theorem maxObjectsSize_cons (d : ObjectDesc) (ds : List ObjectDesc) :
    maxObjectsSize (d :: ds) = d.maxSize + maxObjectsSize ds := by
  simp [maxObjectsSize]

/-- The places of a record and of its object, in an array whose records start at `m` and whose objects
    start at `o`. -/
theorem mem_objectInfos {ds : List ObjectDesc} {m o : ℕ} {info : MetadataObjectInfo}
    (h : info ∈ objectInfos ds m o) :
    (∃ k d, ds[k]? = some d ∧ d.id = info.id ∧ d.maxSize = info.maxSize ∧
      info.metadataOffset = m + sizeofObjectInfo * k) ∧
      o ≤ info.offset ∧ info.offset + info.maxSize ≤ o + maxObjectsSize ds ∧ info.realSize = 0 := by
  induction ds generalizing m o with
  | nil => exact absurd h (by simp [objectInfos])
  | cons d ds ih =>
    rw [maxObjectsSize_cons]
    rcases mem_cons.1 h with rfl | h
    · refine ⟨⟨0, d, rfl, rfl, rfl, rfl⟩, le_refl _, ?_, rfl⟩
      dsimp only
      omega
    · obtain ⟨⟨k, d', hd', hid, hmax, hmeta⟩, hlo, hhi, hreal⟩ := ih h
      refine ⟨⟨k + 1, d', hd', hid, hmax, ?_⟩, by omega, by omega, hreal⟩
      rw [Nat.mul_add]
      omega

/-- Each place in the array of records belongs to an object. -/
theorem exists_objectInfo {ds : List ObjectDesc} (m o : ℕ) {k : ℕ} (h : k < ds.length) :
    ∃ info ∈ objectInfos ds m o, info.metadataOffset = m + sizeofObjectInfo * k := by
  induction ds generalizing m o k with
  | nil => simp at h
  | cons d ds ih =>
    cases k with
    | zero => exact ⟨_, mem_cons_self, rfl⟩
    | succ k =>
      obtain ⟨info, hmem, hmeta⟩ :=
        ih (m + sizeofObjectInfo) (o + d.maxSize) (Nat.lt_of_succ_lt_succ h)
      refine ⟨info, mem_cons_of_mem _ hmem, ?_⟩
      rw [Nat.mul_add]
      omega

/-- Two records and their objects do not overlap. -/
def Apart (a b : MetadataObjectInfo) : Prop :=
  (a.offset + a.maxSize ≤ b.offset ∨ b.offset + b.maxSize ≤ a.offset) ∧
    (a.metadataOffset + sizeofObjectInfo ≤ b.metadataOffset ∨
      b.metadataOffset + sizeofObjectInfo ≤ a.metadataOffset)

instance : Std.Symm Apart := ⟨fun _ _ h => ⟨h.1.symm, h.2.symm⟩⟩

theorem pairwise_objectInfos (ds : List ObjectDesc) (m o : ℕ) :
    (objectInfos ds m o).Pairwise Apart := by
  induction ds generalizing m o with
  | nil => exact Pairwise.nil
  | cons d ds ih =>
    refine pairwise_cons.2 ⟨fun b hb => ?_, ih _ _⟩
    obtain ⟨⟨k, -, -, -, -, hmeta⟩, hlo, -⟩ := mem_objectInfos hb
    refine ⟨Or.inl hlo, Or.inl ?_⟩
    rw [hmeta]
    simp

/-- An array of descriptors with the ids `0, …, n - 1` in any order. -/
structure Descriptors where
  array : List ObjectDesc
  ids : (array.map (·.id)).Perm (List.range array.length)
  length_lt : array.length < 2 ^ 16
  maxSize_lt : ∀ d ∈ array, d.maxSize < 2 ^ 32

namespace Descriptors

variable (d : Descriptors)

/-- The number of objects. -/
def objectsNum : ℕ := d.array.length

/-- Where the objects start. -/
def metadataSize : ℕ := sizeofObjectsNum + sizeofObjectInfo * d.objectsNum

/-- The bytes of the file. -/
def fileSize : ℕ := d.metadataSize + maxObjectsSize d.array

/-- The records of the objects, none of which is written. -/
def infos : List MetadataObjectInfo := objectInfos d.array sizeofObjectsNum d.metadataSize

variable {d} {a b : MetadataObjectInfo}

theorem nodup_ids : (d.infos.map (·.id)).Nodup := by
  rw [infos, map_id_objectInfos]
  exact d.ids.nodup_iff.2 nodup_range

theorem eq_of_id (ha : a ∈ d.infos) (hb : b ∈ d.infos) (h : a.id = b.id) : a = b :=
  inj_on_of_nodup_map nodup_ids ha hb h

theorem apart (ha : a ∈ d.infos) (hb : b ∈ d.infos) (hne : a ≠ b) : Apart a b :=
  (pairwise_objectInfos _ _ _).forall ha hb hne

theorem exists_id_iff {id : ℕ} : (∃ info ∈ d.infos, info.id = id) ↔ id < d.objectsNum := by
  have hmem : id ∈ d.infos.map (·.id) ↔ id ∈ range d.array.length := by
    rw [infos, map_id_objectInfos]
    exact d.ids.mem_iff
  rw [mem_map, mem_range] at hmem
  exact hmem

theorem id_lt (ha : a ∈ d.infos) : a.id < d.objectsNum := exists_id_iff.1 ⟨a, ha, rfl⟩

/-- The record of an object has the place that its descriptor has in the array. -/
theorem exists_desc (ha : a ∈ d.infos) :
    ∃ k desc, d.array[k]? = some desc ∧ desc.id = a.id ∧ desc.maxSize = a.maxSize ∧
      a.metadataOffset = sizeofObjectsNum + sizeofObjectInfo * k :=
  (mem_objectInfos ha).1

/-- Each object of the array has a record. -/
theorem exists_info {desc : ObjectDesc} (hdesc : desc ∈ d.array) :
    ∃ info ∈ d.infos, info.id = desc.id ∧ info.maxSize = desc.maxSize := by
  have hmem : desc.id ∈ d.infos.map (·.id) := by
    rw [infos, map_id_objectInfos]
    exact mem_map.2 ⟨desc, hdesc, rfl⟩
  obtain ⟨info, hinfo, hid⟩ := mem_map.1 hmem
  obtain ⟨k, desc', hdesc', hid', hmax, -⟩ := exists_desc hinfo
  have hnodup : (d.array.map (·.id)).Nodup := d.ids.nodup_iff.2 nodup_range
  obtain rfl : desc' = desc :=
    inj_on_of_nodup_map hnodup (mem_of_getElem? hdesc') hdesc (hid'.trans hid)
  exact ⟨info, hinfo, hid, hmax.symm⟩

theorem place_bounds (ha : a ∈ d.infos) :
    sizeofObjectsNum ≤ a.metadataOffset ∧ a.metadataOffset + sizeofObjectInfo ≤ d.metadataSize := by
  obtain ⟨k, desc, hdesc, -, -, hmeta⟩ := exists_desc ha
  rw [metadataSize]
  have hk : k < d.objectsNum := (List.getElem?_eq_some_iff.1 hdesc).1
  have hmul : sizeofObjectInfo * (k + 1) ≤ sizeofObjectInfo * d.objectsNum :=
    Nat.mul_le_mul_left _ hk
  rw [Nat.mul_add] at hmul
  omega

theorem object_bounds (ha : a ∈ d.infos) :
    d.metadataSize ≤ a.offset ∧ a.offset + a.maxSize ≤ d.fileSize := by
  obtain ⟨-, hlo, hhi, -⟩ := mem_objectInfos ha
  exact ⟨hlo, hhi⟩

theorem realSize_eq (ha : a ∈ d.infos) : a.realSize = 0 := by
  obtain ⟨-, -, -, hreal⟩ := mem_objectInfos ha
  exact hreal

theorem fileSize_lt : d.fileSize < 2 ^ 64 := by
  have hsum : maxObjectsSize d.array ≤ d.array.length * 2 ^ 32 := by
    have h := sum_le_card_nsmul (d.array.map (·.maxSize)) (2 ^ 32) fun x hx => by
      obtain ⟨desc, hdesc, rfl⟩ := mem_map.1 hx
      exact le_of_lt (d.maxSize_lt desc hdesc)
    simpa [maxObjectsSize] using h
  have hlength := d.length_lt
  rw [fileSize, metadataSize, sizeofObjectsNum, sizeofObjectInfo, objectsNum]
  omega

/-- A record of the array with a size in the room of its object is in the range of its fields. -/
theorem fits (ha : a ∈ d.infos) {n : ℕ} (hn : n ≤ a.maxSize) : ({ a with realSize := n }).Fits := by
  obtain ⟨k, desc, hdesc, -, hmax, -⟩ := exists_desc ha
  have hlt := d.maxSize_lt desc (mem_of_getElem? hdesc)
  have hplace := place_bounds ha
  have hobject := object_bounds ha
  have hsize := d.fileSize_lt
  have hid := id_lt ha
  have hlength := d.length_lt
  rw [objectsNum] at hid
  constructor
  all_goals dsimp only; omega

end Descriptors

/-! ## Objects in a file -/

/-- The record of an object after what has been written to it. -/
def current (committed : ℕ → Option Bytes) (info : MetadataObjectInfo) : MetadataObjectInfo :=
  { info with realSize := ((committed info.id).map List.length).getD 0 }

/-- The file and the table hold the objects that have been written. -/
structure Stored (d : Descriptors) (committed : ℕ → Option Bytes) (h : ObjectsMetadataHandler)
    (file : Bytes) : Prop where
  objectsNum : h.objectsNum = d.objectsNum
  table : ∀ id i, h.getObjectInfo id = some i ↔
    ∃ info ∈ d.infos, info.id = id ∧ i = current committed info
  length : file.length = d.fileSize
  number : field file 0 sizeofObjectsNum = encode 2 d.objectsNum
  /-- The record of a written object, at its place in the order of the array. -/
  written : ∀ info ∈ d.infos, (committed info.id).isSome →
    field file info.metadataOffset sizeofObjectInfo = (current committed info).bytes
  /-- At the place of an object that is not written, the record that comes there by its id. -/
  unwritten : ∀ info ∈ d.infos, committed info.id = none → ∀ info' ∈ d.infos,
    info.metadataOffset = sizeofObjectsNum + sizeofObjectInfo * info'.id →
    field file info.metadataOffset sizeofObjectInfo = info'.bytes
  objects : ∀ info ∈ d.infos, ∀ data, committed info.id = some data →
    field file info.offset data.length = data ∧ 0 < data.length ∧ data.length ≤ info.maxSize
  known : ∀ id, (committed id).isSome → ∃ info ∈ d.infos, info.id = id

variable {d : Descriptors} {committed : ℕ → Option Bytes} {h : ObjectsMetadataHandler} {file : Bytes}
  {info : MetadataObjectInfo} {data : Bytes}

open Descriptors

theorem current_of_none (hinfo : info ∈ d.infos) (hnone : committed info.id = none) :
    current committed info = info := by
  rw [current, hnone]
  show ({ info with realSize := 0 } : MetadataObjectInfo) = info
  rw [← realSize_eq hinfo]

theorem current_of_some (hdata : committed info.id = some data) :
    current committed info = { info with realSize := data.length } := by
  rw [current, hdata]
  rfl

theorem current_update_of_ne {info' : MetadataObjectInfo} (hne : info'.id ≠ info.id) :
    current (Function.update committed info.id (some data)) info' = current committed info' := by
  rw [current, current, update_of_ne hne]

theorem Stored.getObjectInfo (hs : Stored d committed h file) (hinfo : info ∈ d.infos) :
    h.getObjectInfo info.id = some (current committed info) :=
  (hs.table _ _).2 ⟨info, hinfo, rfl, rfl⟩

/-- The file after a write to an object. -/
def writeObject (file : Bytes) (info : MetadataObjectInfo) (data : Bytes) : Bytes :=
  write (write file info.offset data) info.metadataOffset
    ({ info with realSize := data.length } : MetadataObjectInfo).bytes

theorem Stored.handleObjectWrite (hs : Stored d committed h file) (hinfo : info ∈ d.infos)
    (data : Bytes) :
    handleObjectWrite h file info.id data =
      ({ h with objectsMap := h.objectsMap.insert info.id { info with realSize := data.length } },
        writeObject file info data) := by
  rw [FileStorage.handleObjectWrite, hs.getObjectInfo hinfo]
  rfl

/-- What a write to an object leaves as it is. -/
theorem field_writeObject_of_disjoint (hlength : file.length = d.fileSize) (hinfo : info ∈ d.infos)
    {data : Bytes} (hmax : data.length ≤ info.maxSize) {start width : ℕ}
    (hobject : start + width ≤ info.offset ∨ info.offset + info.maxSize ≤ start)
    (hrecord : start + width ≤ info.metadataOffset ∨
      info.metadataOffset + sizeofObjectInfo ≤ start) :
    field (writeObject file info data) start width = field file start width := by
  have hplace := place_bounds hinfo
  have hbounds := object_bounds hinfo
  have hin : info.offset + data.length ≤ file.length := by omega
  rw [writeObject, field_write_of_disjoint, field_write_of_disjoint hin]
  · omega
  · rw [length_bytes, length_write hin]
    omega
  · rw [length_bytes]
    exact hrecord

section

variable (hlength : file.length = d.fileSize) (hinfo : info ∈ d.infos)
  (hmax : data.length ≤ info.maxSize)
include hlength hinfo hmax

theorem field_writeObject_object :
    field (writeObject file info data) info.offset data.length = data := by
  have hplace := place_bounds hinfo
  have hbounds := object_bounds hinfo
  have hin : info.offset + data.length ≤ file.length := by omega
  rw [writeObject, field_write_of_disjoint, field_write_self]
  · rw [length_bytes, length_write hin]
    omega
  · rw [length_bytes]
    omega

theorem length_writeObject : (writeObject file info data).length = file.length := by
  have hplace := place_bounds hinfo
  have hbounds := object_bounds hinfo
  have hin : info.offset + data.length ≤ file.length := by omega
  rw [writeObject, length_write, length_write hin]
  rw [length_bytes, length_write hin]
  omega

end

/-- **A write to an object** changes this object only. -/
theorem Stored.write (hs : Stored d committed h file) (hinfo : info ∈ d.infos)
    (hpos : 0 < data.length) (hmax : data.length ≤ info.maxSize) :
    Stored d (Function.update committed info.id (some data))
      (FileStorage.handleObjectWrite h file info.id data).1
      (FileStorage.handleObjectWrite h file info.id data).2 := by
  rw [hs.handleObjectWrite hinfo]
  have hplace := place_bounds hinfo
  have hbounds := object_bounds hinfo
  have hnew : current (update committed info.id (some data)) info =
      { info with realSize := data.length } := current_of_some (update_self _ _ _)
  constructor
  case objectsNum => exact hs.objectsNum
  case table =>
    intro id i
    show (h.objectsMap.insert info.id _).find? id = some i ↔ _
    rw [find?_insert]
    split_ifs with hid
    · constructor
      · intro heq
        exact ⟨info, hinfo, hid.symm, by rw [hnew]; exact (Option.some.inj heq).symm⟩
      · rintro ⟨info', hinfo', hid', rfl⟩
        obtain rfl := eq_of_id hinfo' hinfo (hid'.trans hid)
        rw [hnew]
    · refine (hs.table id i).trans ?_
      constructor
      · rintro ⟨info', hinfo', rfl, rfl⟩
        exact ⟨info', hinfo', rfl, (current_update_of_ne hid).symm⟩
      · rintro ⟨info', hinfo', rfl, rfl⟩
        exact ⟨info', hinfo', rfl, current_update_of_ne hid⟩
  case length => exact (length_writeObject hs.length hinfo hmax).trans hs.length
  case number =>
    refine Eq.trans ?_ hs.number
    exact field_writeObject_of_disjoint hs.length hinfo hmax (Or.inl (by omega)) (Or.inl (by omega))
  case written =>
    intro info' hinfo' hsome
    by_cases heq : info' = info
    · rw [heq, hnew]
      have hself := field_write_self (RandomAccess.write file info.offset data) info.metadataOffset
        ({ info with realSize := data.length } : MetadataObjectInfo).bytes
      rwa [length_bytes] at hself
    · have hid : info'.id ≠ info.id := fun hid => heq (eq_of_id hinfo' hinfo hid)
      have hplace' := place_bounds hinfo'
      rw [update_of_ne hid] at hsome
      rw [current_update_of_ne hid, ← hs.written info' hinfo' hsome]
      exact field_writeObject_of_disjoint hs.length hinfo hmax (Or.inl (by omega))
        (apart hinfo' hinfo heq).2
  case unwritten =>
    intro info' hinfo' hnone info'' hinfo'' hoffset
    have heq : info' ≠ info := by
      rintro rfl
      simp at hnone
    have hid : info'.id ≠ info.id := fun hid => heq (eq_of_id hinfo' hinfo hid)
    have hplace' := place_bounds hinfo'
    rw [update_of_ne hid] at hnone
    rw [← hs.unwritten info' hinfo' hnone info'' hinfo'' hoffset]
    exact field_writeObject_of_disjoint hs.length hinfo hmax (Or.inl (by omega))
      (apart hinfo' hinfo heq).2
  case objects =>
    intro info' hinfo' data' hdata'
    by_cases heq : info' = info
    · subst heq
      rw [update_self] at hdata'
      obtain rfl := Option.some.inj hdata'
      exact ⟨field_writeObject_object hs.length hinfo hmax, hpos, hmax⟩
    · have hid : info'.id ≠ info.id := fun hid => heq (eq_of_id hinfo' hinfo hid)
      have hbounds' := object_bounds hinfo'
      rw [update_of_ne hid] at hdata'
      obtain ⟨hfield, hpos', hmax'⟩ := hs.objects info' hinfo' data' hdata'
      refine ⟨Eq.trans ?_ hfield, hpos', hmax'⟩
      have hapart := (apart hinfo' hinfo heq).1
      exact field_writeObject_of_disjoint hs.length hinfo hmax (by omega) (Or.inr (by omega))
  case known =>
    intro id hsome
    by_cases hid : id = info.id
    · exact ⟨info, hinfo, hid.symm⟩
    · rw [update_of_ne hid] at hsome
      exact hs.known id hsome

/-! ## Tables that are filled record by record -/

theorem objectsNum_foldl (h : ObjectsMetadataHandler) (l : List MetadataObjectInfo) :
    (l.foldl ObjectsMetadataHandler.setObjectInfo h).objectsNum = h.objectsNum := by
  induction l generalizing h with
  | nil => rfl
  | cons i l ih => exact ih _

theorem objectsMap_foldl (h : ObjectsMetadataHandler) (l : List MetadataObjectInfo) :
    (l.foldl ObjectsMetadataHandler.setObjectInfo h).objectsMap =
      (l.map fun i => (i.id, i)).foldl (fun m e => m.insertNew e.1 e.2) h.objectsMap := by
  induction l generalizing h with
  | nil => rfl
  | cons i l ih => exact ih _

/-- A table has the records that were set, if no two of them differ in more than the id. -/
theorem getObjectInfo_foldl {l : List MetadataObjectInfo} (n : ℕ)
    (hsame : ∀ a ∈ l, ∀ b ∈ l, a.id = b.id → a = b) (id : ℕ) (i : MetadataObjectInfo) :
    (l.foldl ObjectsMetadataHandler.setObjectInfo { objectsNum := n }).getObjectInfo id = some i ↔
      i ∈ l ∧ i.id = id := by
  have hempty : (empty : OrderedMap ℕ MetadataObjectInfo).find? id = none := rfl
  rw [ObjectsMetadataHandler.getObjectInfo, objectsMap_foldl, find?_foldl_insertNew, hempty,
    Option.none_or, Option.map_eq_some_iff]
  constructor
  · rintro ⟨e, he, rfl⟩
    obtain ⟨i, hi, rfl⟩ := mem_map.1 (mem_of_find?_eq_some he)
    exact ⟨hi, by simpa using find?_some he⟩
  · rintro ⟨hi, hid⟩
    have hsome : ((l.map fun i => (i.id, i)).find? fun e => e.1 == id).isSome := by
      rw [find?_isSome]
      exact ⟨(i.id, i), mem_map.2 ⟨i, hi, rfl⟩, by simp [hid]⟩
    obtain ⟨e, he⟩ := Option.isSome_iff_exists.1 hsome
    refine ⟨e, he, ?_⟩
    obtain ⟨i', hi', rfl⟩ := mem_map.1 (mem_of_find?_eq_some he)
    have hid' : i'.id = id := by simpa using find?_some he
    exact hsame i' hi' i hi (hid'.trans hid.symm)

/-! ## A new file -/

/-- The records are written one behind the other. -/
theorem writeFileObjectsMetadata_spec {entries : List (ℕ × MetadataObjectInfo)} {m : ℕ}
    {file : Bytes} (hlength : m + sizeofObjectInfo * entries.length ≤ file.length) :
    (writeFileObjectsMetadata entries m file).length = file.length ∧
      (∀ k e, entries[k]? = some e →
        field (writeFileObjectsMetadata entries m file) (m + sizeofObjectInfo * k) sizeofObjectInfo =
          e.2.bytes) ∧
      ∀ start width, start + width ≤ m →
        field (writeFileObjectsMetadata entries m file) start width = field file start width := by
  induction entries generalizing m file with
  | nil => exact ⟨rfl, nofun, fun _ _ _ => rfl⟩
  | cons e entries ih =>
    rw [length_cons, Nat.mul_add] at hlength
    have hin : m + e.2.bytes.length ≤ file.length := by
      rw [length_bytes]
      omega
    have hwritten := length_write hin
    obtain ⟨hlen, hrecords, hbefore⟩ := @ih (m + sizeofObjectInfo)
      (RandomAccess.write file m e.2.bytes) (by omega)
    refine ⟨hlen.trans hwritten, fun k e' he' => ?_, fun start width hle => ?_⟩
    · cases k with
      | zero =>
        obtain rfl : e = e' := by simpa using he'
        have hself := field_write_self file m e.2.bytes
        rw [← hself]
        exact hbefore m sizeofObjectInfo (le_refl _)
      | succ k =>
        have hrecord := hrecords k e' (by simpa using he')
        rw [add_assoc, add_comm sizeofObjectInfo] at hrecord
        exact hrecord
    · refine (hbefore start width (by omega)).trans ?_
      exact field_write_of_disjoint hin (Or.inl hle)

section

variable {m : OrderedMap ℕ MetadataObjectInfo}
  (hm : ∀ id i, m.find? id = some i ↔ i ∈ d.infos ∧ i.id = id)

include hm

theorem keys_eq_range : m.keys = List.range d.objectsNum := by
  have hsorted : m.keys.Pairwise (· < ·) := pairwise_map.2 m.sorted
  have hperm : m.keys.Perm (range d.objectsNum) := by
    refine (perm_ext_iff_of_nodup (hsorted.imp fun hlt => ne_of_lt hlt) nodup_range).2 ?_
    intro id
    rw [mem_keys_iff, mem_range, ← exists_id_iff]
    simp only [← find?_eq_some_iff, hm]
  exact hperm.eq_of_pairwise (fun a b _ _ hab hba => absurd hab (lt_asymm hba)) hsorted
    pairwise_lt_range

theorem length_entries : m.entries.length = d.objectsNum := by
  have hlength := congrArg length (keys_eq_range hm)
  simpa [OrderedMap.keys] using hlength

/-- The entry of an id stands at the place of the id. -/
theorem entries_getElem? (hinfo : info ∈ d.infos) : m.entries[info.id]? = some (info.id, info) := by
  have hkey : (m.entries[info.id]?).map (·.1) = some info.id := by
    rw [← getElem?_map]
    show m.keys[info.id]? = some info.id
    rw [keys_eq_range hm, getElem?_range (id_lt hinfo)]
  obtain ⟨e, he, hid⟩ := Option.map_eq_some_iff.1 hkey
  have hmem : (info.id, info) ∈ m := find?_eq_some_iff.1 ((hm _ _).2 ⟨hinfo, rfl⟩)
  rw [he, eq_of_mem (m := m) (mem_of_getElem? he) hmem hid]

end

/-- The table that `initMaxSizeOfObjects` sets up. -/
def initialTable (d : Descriptors) : ObjectsMetadataHandler :=
  d.infos.foldl ObjectsMetadataHandler.setObjectInfo { objectsNum := d.objectsNum }

/-- **A new file** has no objects. -/
theorem stored_initial (d : Descriptors) :
    Stored d (fun _ => none) (initialTable d)
      (writeFileMetadata (initialTable d) (truncate [] d.fileSize)) := by
  have htable : ∀ id i, (initialTable d).getObjectInfo id = some i ↔ i ∈ d.infos ∧ i.id = id :=
    getObjectInfo_foldl d.objectsNum fun a ha b hb hid => eq_of_id ha hb hid
  have hnum : (initialTable d).objectsNum = d.objectsNum := objectsNum_foldl _ _
  have hlength : (write (truncate [] d.fileSize) 0 (encode 2 d.objectsNum)).length = d.fileSize := by
    rw [length_write, length_truncate]
    rw [length_truncate, length_encode, fileSize, metadataSize, sizeofObjectsNum]
    omega
  have hentries : (initialTable d).objectsMap.entries.length = d.objectsNum := length_entries htable
  have hroom : sizeofObjectsNum + sizeofObjectInfo * (initialTable d).objectsMap.entries.length ≤
      (write (truncate [] d.fileSize) 0 (encode 2 d.objectsNum)).length := by
    rw [hlength, hentries]
    exact Nat.le_add_right _ _
  obtain ⟨hlen, hrecords, hbefore⟩ := writeFileObjectsMetadata_spec hroom
  rw [writeFileMetadata, hnum]
  constructor
  case objectsNum => exact hnum
  case table =>
    intro id i
    rw [htable]
    constructor
    · rintro ⟨hi, hid⟩
      exact ⟨i, hi, hid, (current_of_none hi rfl).symm⟩
    · rintro ⟨info, hinfo, rfl, rfl⟩
      rw [current_of_none hinfo rfl]
      exact ⟨hinfo, rfl⟩
  case length => exact hlen.trans hlength
  case number =>
    refine (hbefore 0 sizeofObjectsNum (by omega)).trans ?_
    have hself := field_write_self (truncate [] d.fileSize) 0 (encode 2 d.objectsNum)
    rwa [length_encode] at hself
  case written =>
    intro info _ hsome
    simp at hsome
  case unwritten =>
    intro info _ _ info' hinfo' hoffset
    rw [hoffset]
    exact hrecords info'.id _ (entries_getElem? htable hinfo')
  case objects =>
    intro info _ data hdata
    simp at hdata
  case known =>
    intro id hsome
    simp at hsome

/-! ## Opening a file -/

/-- The records that are read from a file. -/
def loadedInfos (file : Bytes) (n readOffset : ℕ) : List MetadataObjectInfo :=
  (List.range n).map fun k =>
    MetadataObjectInfo.ofBytes (field file (readOffset + sizeofObjectInfo * k) sizeofObjectInfo)

theorem loadedInfos_succ (file : Bytes) (n readOffset : ℕ) :
    loadedInfos file (n + 1) readOffset =
      MetadataObjectInfo.ofBytes (field file readOffset sizeofObjectInfo) ::
        loadedInfos file n (readOffset + sizeofObjectInfo) := by
  rw [loadedInfos, range_succ_eq_map, map_cons, map_map]
  congr 1
  refine map_congr_left fun k _ => ?_
  simp only [comp, Nat.succ_eq_add_one, Nat.mul_add]
  congr 2
  omega

theorem loadObjectInfos_eq {file : Bytes} {n readOffset : ℕ}
    (hlength : readOffset + sizeofObjectInfo * n ≤ file.length) (h : ObjectsMetadataHandler) :
    loadObjectInfos file n readOffset h =
      .ok ((loadedInfos file n readOffset).foldl ObjectsMetadataHandler.setObjectInfo h) := by
  induction n generalizing readOffset h with
  | zero => rfl
  | succ n ih =>
    rw [Nat.mul_add] at hlength
    have hread : readItem file readOffset sizeofObjectInfo .WRONG_OBJ_INFO_READ =
        .ok (field file readOffset sizeofObjectInfo) := by
      refine if_neg ?_
      rw [sizeofObjectInfo] at *
      omega
    rw [loadObjectInfos, hread, ok_bind, ih (by omega), loadedInfos_succ, foldl_cons]

/-- No record is lost: the object whose id is a place in the array is written exactly if the object at
    this place is. -/
def Unmoved (d : Descriptors) (committed : ℕ → Option Bytes) : Prop :=
  ∀ desc ∈ d.array.zipIdx, (committed desc.2).isSome = (committed desc.1.id).isSome

instance (d : Descriptors) (committed : ℕ → Option Bytes) : Decidable (Unmoved d committed) :=
  inferInstanceAs (Decidable (∀ _ ∈ _, _))

theorem Unmoved.isSome_eq (hunmoved : Unmoved d committed) (hinfo : info ∈ d.infos) {k : ℕ}
    (hk : info.metadataOffset = sizeofObjectsNum + sizeofObjectInfo * k) :
    (committed k).isSome = (committed info.id).isSome := by
  obtain ⟨k', desc, hdesc, hid, -, hmeta⟩ := exists_desc hinfo
  obtain rfl : k' = k := by
    rw [hmeta, sizeofObjectInfo] at hk
    omega
  rw [← hid]
  exact hunmoved (desc, k') (mem_zipIdx_iff_getElem?.2 hdesc)

section

variable (hs : Stored d committed h file)
include hs

theorem Stored.ofBytes_written (hinfo : info ∈ d.infos) (hsome : (committed info.id).isSome) :
    MetadataObjectInfo.ofBytes (field file info.metadataOffset sizeofObjectInfo) =
      current committed info := by
  obtain ⟨data, hdata⟩ := Option.isSome_iff_exists.1 hsome
  obtain ⟨-, -, hmax⟩ := hs.objects info hinfo data hdata
  rw [hs.written info hinfo hsome, current_of_some hdata]
  exact ofBytes_bytes (fits hinfo hmax)

theorem Stored.ofBytes_unwritten (hinfo : info ∈ d.infos) (hnone : committed info.id = none)
    {info' : MetadataObjectInfo} (hinfo' : info' ∈ d.infos)
    (hplace : info.metadataOffset = sizeofObjectsNum + sizeofObjectInfo * info'.id) :
    MetadataObjectInfo.ofBytes (field file info.metadataOffset sizeofObjectInfo) = info' := by
  have hfits := fits hinfo' (Nat.zero_le info'.maxSize)
  rw [← realSize_eq hinfo'] at hfits
  rw [hs.unwritten info hinfo hnone info' hinfo' hplace]
  exact ofBytes_bytes hfits

/-- The records that are read are the records of the table. -/
theorem Stored.mem_loadedInfos (hunmoved : Unmoved d committed) (i : MetadataObjectInfo) :
    i ∈ loadedInfos file d.objectsNum sizeofObjectsNum ↔
      ∃ info ∈ d.infos, i = current committed info := by
  rw [loadedInfos, mem_map]
  constructor
  · rintro ⟨k, hk, rfl⟩
    have hlt := mem_range.1 hk
    obtain ⟨info, hinfo, hplace⟩ := exists_objectInfo sizeofObjectsNum d.metadataSize hlt
    have hsame := hunmoved.isSome_eq hinfo hplace
    rw [← hplace]
    cases hdata : committed info.id with
    | some data => exact ⟨info, hinfo, hs.ofBytes_written hinfo (by rw [hdata]; rfl)⟩
    | none =>
      obtain ⟨info', hinfo', rfl⟩ := exists_id_iff.2 hlt
      rw [hdata] at hsame
      have hnone : committed info'.id = none := Option.not_isSome_iff_eq_none.1 (by simp [hsame])
      refine ⟨info', hinfo', ?_⟩
      rw [hs.ofBytes_unwritten hinfo hdata hinfo' hplace, current_of_none hinfo' hnone]
  · rintro ⟨info, hinfo, rfl⟩
    cases hdata : committed info.id with
    | some data =>
      obtain ⟨k, desc, hdesc, -, -, hplace⟩ := exists_desc hinfo
      refine ⟨k, List.mem_range.2 (List.getElem?_eq_some_iff.1 hdesc).1, ?_⟩
      rw [← hplace]
      exact hs.ofBytes_written hinfo (by rw [hdata]; rfl)
    | none =>
      -- the record is at the place of the id, because the object of this place is not written
      have hlt := id_lt hinfo
      obtain ⟨info', hinfo', hplace⟩ := exists_objectInfo sizeofObjectsNum d.metadataSize hlt
      have hsame := hunmoved.isSome_eq hinfo' hplace
      rw [hdata] at hsame
      have hnone : committed info'.id = none := Option.not_isSome_iff_eq_none.1 (by simp [← hsame])
      refine ⟨info.id, mem_range.2 hlt, ?_⟩
      rw [← hplace, hs.ofBytes_unwritten hinfo' hnone hinfo hplace, current_of_none hinfo hdata]

/-- **Opening a file again** gives the same objects. -/
theorem Stored.openFile (hne : d.array ≠ []) (hunmoved : Unmoved d committed) :
    ∃ h', FileStorage.openFile file = .ok { file, objectsMetadata := some h' } ∧
      Stored d committed h' file := by
  have hsize : d.metadataSize ≤ file.length := by
    rw [hs.length]
    exact Nat.le_add_right _ _
  have hnum : readItem file 0 sizeofObjectsNum .WRONG_NUM_OF_OBJ_READ =
      .ok (encode 2 d.objectsNum) := by
    rw [← hs.number]
    refine if_neg ?_
    rw [metadataSize, sizeofObjectsNum] at hsize
    rw [sizeofObjectsNum]
    omega
  have hpos : d.objectsNum ≠ 0 := fun hzero => hne (length_eq_zero_iff.1 hzero)
  have hdecode : decode (encode 2 d.objectsNum) = d.objectsNum := decode_encode_of_lt d.length_lt
  refine ⟨(loadedInfos file d.objectsNum sizeofObjectsNum).foldl
    ObjectsMetadataHandler.setObjectInfo { objectsNum := d.objectsNum }, ?_, ?_⟩
  · rw [FileStorage.openFile, loadFileMetadata, hnum, ok_bind]
    simp only [hdecode, if_neg hpos, loadObjectInfos_eq hsize]
    rfl
  · refine ⟨objectsNum_foldl _ _, fun id i => ?_, hs.length, hs.number, hs.written, hs.unwritten,
      hs.objects, hs.known⟩
    have hsame : ∀ a ∈ loadedInfos file d.objectsNum sizeofObjectsNum,
        ∀ b ∈ loadedInfos file d.objectsNum sizeofObjectsNum, a.id = b.id → a = b := by
      intro a ha b hb hid
      obtain ⟨info, hinfo, rfl⟩ := (hs.mem_loadedInfos hunmoved a).1 ha
      obtain ⟨info', hinfo', rfl⟩ := (hs.mem_loadedInfos hunmoved b).1 hb
      rw [eq_of_id hinfo hinfo' hid]
    rw [getObjectInfo_foldl _ hsame, hs.mem_loadedInfos hunmoved]
    constructor
    · rintro ⟨⟨info, hinfo, rfl⟩, hid⟩
      exact ⟨info, hinfo, hid, rfl⟩
    · rintro ⟨info, hinfo, rfl, rfl⟩
      exact ⟨⟨info, hinfo, rfl⟩, rfl⟩

end

end ConcordBft.FileStorage
