import ConcordBft.Lib.Checked
import ConcordBft.Lib.OrderedMap
import ConcordBft.Lib.RandomAccess
import ConcordBft.Types

set_option autoImplicit false

/-! # Metadata storage in a file (`tests/simpleStorage`)

A file starts with the number of objects and a record for each object (`MetadataObjectInfo`); the
objects stand behind, each with room for its maximal size. `ObjectsMetadataHandler` is the copy of the
records in memory. File operations succeed, and what is written is in the file when it is opened the
next time, so flushing is not modelled. -/

namespace ConcordBft.FileStorage

open LittleEndian RandomAccess Checked

/-! ## Records -/

/-- An object that the client of the storage wants to keep. -/
structure ObjectDesc where
  id : ℕ
  maxSize : ℕ
deriving DecidableEq, Repr

/-- The record of an object in the file. -/
structure MetadataObjectInfo where
  id : ℕ
  metadataOffset : ℕ
  offset : ℕ
  realSize : ℕ
  maxSize : ℕ
deriving DecidableEq, Repr

def sizeofObjectsNum : ℕ := 2

def sizeofObjectInfo : ℕ := 32

namespace MetadataObjectInfo

/-- The record in the file. Six bytes behind the id are padding. -/
def bytes (info : MetadataObjectInfo) : Bytes :=
  encode 2 info.id ++ (List.replicate 6 0 ++ (encode 8 info.metadataOffset ++
    (encode 8 info.offset ++ (encode 4 info.realSize ++ encode 4 info.maxSize))))

/-- A record from its bytes. -/
def ofBytes (b : Bytes) : MetadataObjectInfo where
  id := decode (field b 0 2)
  metadataOffset := decode (field b 8 8)
  offset := decode (field b 16 8)
  realSize := decode (field b 24 4)
  maxSize := decode (field b 28 4)

/-- The numbers are in the range of their fields. -/
structure Fits (info : MetadataObjectInfo) : Prop where
  id : info.id < 2 ^ 16
  metadataOffset : info.metadataOffset < 2 ^ 64
  offset : info.offset < 2 ^ 64
  realSize : info.realSize < 2 ^ 32
  maxSize : info.maxSize < 2 ^ 32

@[simp]
theorem length_bytes (info : MetadataObjectInfo) : info.bytes.length = sizeofObjectInfo := by
  simp [bytes, sizeofObjectInfo]

/-- **Round trip** of a record. -/
theorem ofBytes_bytes {info : MetadataObjectInfo} (h : info.Fits) : ofBytes info.bytes = info := by
  have hid := decode_encode_of_lt (show info.id < 256 ^ 2 from h.id)
  have hmetadataOffset := decode_encode_of_lt (show info.metadataOffset < 256 ^ 8 from h.metadataOffset)
  have hoffset := decode_encode_of_lt (show info.offset < 256 ^ 8 from h.offset)
  have hrealSize := decode_encode_of_lt (show info.realSize < 256 ^ 4 from h.realSize)
  have hmaxSize := decode_encode_of_lt (show info.maxSize < 256 ^ 4 from h.maxSize)
  simp [ofBytes, bytes, hid, hmetadataOffset, hoffset, hrealSize, hmaxSize]

end MetadataObjectInfo

/-- The records of all objects. -/
structure ObjectsMetadataHandler where
  objectsNum : ℕ
  objectsMap : OrderedMap ℕ MetadataObjectInfo := OrderedMap.empty

namespace ObjectsMetadataHandler

variable (h : ObjectsMetadataHandler)

/-- The bytes in front of the first object. -/
def getObjectsMetadataSize : ℕ := sizeofObjectsNum + sizeofObjectInfo * h.objectsNum

/-- The record of an id that is there already stays. -/
def setObjectInfo (info : MetadataObjectInfo) : ObjectsMetadataHandler :=
  { h with objectsMap := h.objectsMap.insertNew info.id info }

/-- The record of an object. -/
def getObjectInfo (objectId : ℕ) : Option MetadataObjectInfo := h.objectsMap.find? objectId

end ObjectsMetadataHandler

/-! ## The storage -/

/-- What a function throws, and `useAfterFree` for the access to a transaction that was deleted. -/
inductive StorageError where
  /-- "Failed to read a number of objects or it is 0" -/
  | WRONG_NUM_OF_OBJ_READ
  /-- "Failed to read objects info or it is different from expected" -/
  | WRONG_OBJ_INFO_READ
  /-- "File metadata is not set up properly" -/
  | METADATA_IS_NOT_SET_PROPERLY
  /-- "Wrong parameter value specified" -/
  | WRONG_PARAMETER
  /-- "Failed to read an object from the file" -/
  | FAILED_TO_READ_OBJECT
  /-- "beginAtomicWriteOnlyTransaction should be launched first" -/
  | WRONG_FLOW
  | useAfterFree
deriving DecidableEq, Repr

/-- The pointer `transaction_`. -/
inductive Transaction where
  | null
  | opened (requests : OrderedMap ℕ Bytes)
  /-- The pointer keeps its value after `delete transaction_`. -/
  | freed

/-- The file and the members of the object that has opened it. -/
structure Storage where
  file : Bytes := []
  objectsMetadata : Option ObjectsMetadataHandler := none
  transaction : Transaction := .null

/-- `fread` of one item; it gives no item if the item has no bytes or the file is too short. -/
def readItem (file : Bytes) (offset itemSize : ℕ) (errorMsg : StorageError) :
    Except StorageError Bytes :=
  if itemSize = 0 ∨ file.length < offset + itemSize then .error errorMsg
  else .ok (field file offset itemSize)

/-! ## Opening -/

/-- The loop of `loadFileMetadata`. -/
def loadObjectInfos (file : Bytes) : (objectsNum readOffset : ℕ) → ObjectsMetadataHandler →
    Except StorageError ObjectsMetadataHandler
  | 0, _, h => pure h
  | objectsNum + 1, readOffset, h => do
      let objectInfo ← readItem file readOffset sizeofObjectInfo .WRONG_OBJ_INFO_READ
      loadObjectInfos file objectsNum (readOffset + sizeofObjectInfo)
        (h.setObjectInfo (MetadataObjectInfo.ofBytes objectInfo))

def loadFileMetadata (file : Bytes) : Except StorageError (Option ObjectsMetadataHandler) := do
  let b ← readItem file 0 sizeofObjectsNum .WRONG_NUM_OF_OBJ_READ
  let objectsNum := decode b
  if objectsNum = 0 then pure none
  else some <$> loadObjectInfos file objectsNum sizeofObjectsNum { objectsNum }

/-- The constructor, for a file that exists. -/
def openFile (file : Bytes) : Except StorageError Storage := do
  let objectsMetadata ← loadFileMetadata file
  pure { file, objectsMetadata }

/-- The records that `initMaxSizeOfObjects` gives to the objects, in the order of the array. -/
def objectInfos : List ObjectDesc → (objMetaOffset objOffset : ℕ) → List MetadataObjectInfo
  | [], _, _ => []
  | d :: rest, objMetaOffset, objOffset =>
    ⟨d.id, objMetaOffset, objOffset, 0, d.maxSize⟩ ::
      objectInfos rest (objMetaOffset + sizeofObjectInfo) (objOffset + d.maxSize)

/-- `writeFileObjectsMetadata`: the records in the order of the ids. -/
def writeFileObjectsMetadata : List (ℕ × MetadataObjectInfo) → (writeOffset : ℕ) → Bytes → Bytes
  | [], _, file => file
  | it :: rest, writeOffset, file =>
    writeFileObjectsMetadata rest (writeOffset + sizeofObjectInfo)
      (write file writeOffset it.2.bytes)

def writeFileMetadata (h : ObjectsMetadataHandler) (file : Bytes) : Bytes :=
  writeFileObjectsMetadata h.objectsMap.entries sizeofObjectsNum
    (write file 0 (encode 2 h.objectsNum))

/-- The number of bytes of all objects. -/
def maxObjectsSize (metadataObjectsArray : List ObjectDesc) : ℕ :=
  (metadataObjectsArray.map (·.maxSize)).sum

def initMaxSizeOfObjects (s : Storage) (metadataObjectsArray : List ObjectDesc) : Storage :=
  match s.objectsMetadata with
  | some _ => s
  | none =>
    let h : ObjectsMetadataHandler := { objectsNum := metadataObjectsArray.length }
    let fileMetadataSize := h.getObjectsMetadataSize
    let h := (objectInfos metadataObjectsArray sizeofObjectsNum fileMetadataSize).foldl
      ObjectsMetadataHandler.setObjectInfo h
    let maxFileSize := fileMetadataSize + maxObjectsSize metadataObjectsArray
    { s with
      file := writeFileMetadata h (truncate s.file maxFileSize)
      objectsMetadata := some h }

/-! ## Reading and writing -/

variable (s : Storage)

/-- The records have to be there. -/
def verifyFileMetadataSetup : Except StorageError ObjectsMetadataHandler :=
  match s.objectsMetadata with
  | none => .error .METADATA_IS_NOT_SET_PROPERLY
  | some h => if h.objectsNum = 0 then .error .METADATA_IS_NOT_SET_PROPERLY else .ok h

/-- Returns the record of the object. Buffers are not null. -/
def verifyOperation (objectId dataLen : ℕ) :
    Except StorageError (ObjectsMetadataHandler × MetadataObjectInfo) := do
  let h ← verifyFileMetadataSetup s
  match h.getObjectInfo objectId with
  | none => .error .WRONG_PARAMETER
  | some objectInfo =>
    require .WRONG_PARAMETER
      (¬ (h.objectsNum - 1 < objectId ∨ dataLen = 0 ∨ objectInfo.maxSize < dataLen))
    pure (h, objectInfo)

/-- Writes the object and then its record, at the offset that the record names. -/
def handleObjectWrite (h : ObjectsMetadataHandler) (file : Bytes) (objectId : ℕ) (data : Bytes) :
    ObjectsMetadataHandler × Bytes :=
  match h.getObjectInfo objectId with
  | none => (h, file)
  | some objectInfo =>
    let objectInfo' := { objectInfo with realSize := data.length }
    ({ h with objectsMap := h.objectsMap.insert objectId objectInfo' },
      write (write file objectInfo.offset data) objectInfo.metadataOffset objectInfo'.bytes)

/-- `read`: the bytes that are written to `outBufferForObject`; `outActualObjectSize` is their
    number. -/
def read (objectId bufferSize : ℕ) : Except StorageError Bytes := do
  let (_, objectInfo) ← verifyOperation s objectId bufferSize
  readItem s.file objectInfo.offset objectInfo.realSize .FAILED_TO_READ_OBJECT

/-- Writes one object to the file. -/
def atomicWrite (objectId : ℕ) (data : Bytes) : Except StorageError Storage := do
  let (h, _) ← verifyOperation s objectId data.length
  let (h, file) := handleObjectWrite h s.file objectId data
  pure { s with file, objectsMetadata := some h }

def beginAtomicWriteOnlyTransaction : Except StorageError Storage := do
  let _ ← verifyFileMetadataSetup s
  match s.transaction with
  | .null => pure { s with transaction := .opened OrderedMap.empty }
  | .opened _ | .freed => pure s

/-- An earlier request for the object stays. -/
def writeInTransaction (objectId : ℕ) (data : Bytes) : Except StorageError Storage := do
  let _ ← verifyOperation s objectId data.length
  match s.transaction with
  | .null => .error .WRONG_FLOW
  | .freed => .error .useAfterFree
  | .opened requests => pure { s with transaction := .opened (requests.insertNew objectId data) }

/-- Writes the objects of the transaction. -/
def commitAtomicWriteOnlyTransaction : Except StorageError Storage := do
  let h ← verifyFileMetadataSetup s
  match s.transaction with
  | .null => .error .WRONG_FLOW
  | .freed => .error .useAfterFree
  | .opened requests =>
    let (h, file) := requests.entries.foldl
      (fun st it => handleObjectWrite st.1 st.2 it.1 it.2) (h, s.file)
    pure { file, objectsMetadata := some h, transaction := .freed }

end ConcordBft.FileStorage
