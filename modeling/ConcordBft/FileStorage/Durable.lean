import ConcordBft.FileStorage.Layout
import ConcordBft.Lib.Machine

set_option autoImplicit false

/-! # Atomic and durable objects

`Objects` says what a metadata storage is for: objects with the bytes that were committed last, and a
transaction whose writes become visible together. A run of a `Storage` has such objects as its second
component. The storage keeps them as long as its calls stay clear of four things (`Run.Clean`): two
transactions while the file is open, two writes to an object in a transaction, opening the file again
when a record was lost, and a buffer that is smaller than the object or larger than its room. -/

namespace ConcordBft.FileStorage

open Checked Function

/-! ## What a client expects -/

/-- The calls on a storage. -/
inductive Operation where
  | atomicWrite (objectId : ℕ) (data : Bytes)
  | beginAtomicWriteOnlyTransaction
  | writeInTransaction (objectId : ℕ) (data : Bytes)
  | commitAtomicWriteOnlyTransaction
  /-- The file is closed and opened again. -/
  | reopen
deriving DecidableEq, Repr

/-- The committed objects and the writes of the open transaction. -/
structure Objects where
  committed : ℕ → Option Bytes := fun _ => none
  pending : Option (ℕ → Option Bytes) := none

/-- An open transaction is given up when the file is closed. -/
def Objects.next (o : Objects) : Operation → Objects
  | .atomicWrite objectId data =>
    { o with committed := Function.update o.committed objectId (some data) }
  | .beginAtomicWriteOnlyTransaction => { o with pending := some fun _ => none }
  | .writeInTransaction objectId data =>
    { o with pending := o.pending.map fun p => Function.update p objectId (some data) }
  | .commitAtomicWriteOnlyTransaction =>
    { committed := fun id => (o.pending.bind fun p => p id).or (o.committed id), pending := none }
  | .reopen => { o with pending := none }

/-- One call of the storage. -/
def Storage.apply (s : Storage) : Operation → Except StorageError Storage
  | .atomicWrite objectId data => atomicWrite s objectId data
  | .beginAtomicWriteOnlyTransaction => beginAtomicWriteOnlyTransaction s
  | .writeInTransaction objectId data => writeInTransaction s objectId data
  | .commitAtomicWriteOnlyTransaction => commitAtomicWriteOnlyTransaction s
  | .reopen => openFile s.file

/-- A storage together with the objects that it should have. -/
structure Run where
  storage : Storage
  objects : Objects := {}

/-- Whether no transaction was opened. -/
def Transaction.isNull : Transaction → Bool
  | .null => true
  | .opened _ | .freed => false

namespace Run

variable (d : Descriptors) (run : Run)

/-- A file that was just set up. -/
def initial : Run := { storage := initMaxSizeOfObjects {} d.array }

/-- `none` if the call throws. -/
def next (op : Operation) : Option Run :=
  match run.storage.apply op with
  | .ok s => some ⟨s, run.objects.next op⟩
  | .error _ => none

/-- The parameters of a write: an object of the array, and bytes that have room in it. -/
def LegalWrite (objectId : ℕ) (data : Bytes) : Prop :=
  0 < data.length ∧ ∃ desc ∈ d.array, desc.id = objectId ∧ data.length ≤ desc.maxSize

/-- Calls with legal parameters; transactions are begun, written to and committed in this order. -/
def Legal : Operation → Prop
  | .atomicWrite objectId data => LegalWrite d objectId data
  | .beginAtomicWriteOnlyTransaction => run.objects.pending.isNone
  | .writeInTransaction objectId data => LegalWrite d objectId data ∧ run.objects.pending.isSome
  | .commitAtomicWriteOnlyTransaction => run.objects.pending.isSome
  | .reopen => True

/-- The calls after which the storage still has the objects that it should have. -/
def Clean : Operation → Prop
  | .atomicWrite _ _ | .commitAtomicWriteOnlyTransaction => True
  | .beginAtomicWriteOnlyTransaction => run.storage.transaction.isNull
  | .writeInTransaction objectId _ => run.objects.pending.bind (fun p => p objectId) = none
  | .reopen => Unmoved d run.objects.committed

instance (objectId : ℕ) (data : Bytes) : Decidable (LegalWrite d objectId data) :=
  inferInstanceAs (Decidable (_ ∧ _))

instance : (op : Operation) → Decidable (run.Legal d op)
  | .atomicWrite _ _ => inferInstanceAs (Decidable (LegalWrite _ _ _))
  | .beginAtomicWriteOnlyTransaction => inferInstanceAs (Decidable (_ = true))
  | .writeInTransaction _ _ => inferInstanceAs (Decidable (_ ∧ _))
  | .commitAtomicWriteOnlyTransaction => inferInstanceAs (Decidable (_ = true))
  | .reopen => isTrue trivial

instance : (op : Operation) → Decidable (run.Clean d op)
  | .atomicWrite _ _ | .commitAtomicWriteOnlyTransaction => isTrue trivial
  | .beginAtomicWriteOnlyTransaction => inferInstanceAs (Decidable (_ = true))
  | .writeInTransaction _ _ => inferInstanceAs (Decidable (_ = none))
  | .reopen => inferInstanceAs (Decidable (Unmoved _ _))

/-- The states after any legal calls that are `Clean`. -/
def Reaches : Run → Run → Prop :=
  Machine.Reaches next fun run op => run.Legal d op ∧ run.Clean d op

/-! ## The invariant -/

variable {d run} {committed : ℕ → Option Bytes} {h : ObjectsMetadataHandler}
  {file : Bytes} {data : Bytes} {objectId : ℕ}

/-- The parameters of a write, over the records. -/
def Fitting (d : Descriptors) (objectId : ℕ) (data : Bytes) : Prop :=
  ∃ info ∈ d.infos, info.id = objectId ∧ 0 < data.length ∧ data.length ≤ info.maxSize

/-- The requests of a transaction are its writes. -/
def Tracks (d : Descriptors) : Transaction → Option (ℕ → Option Bytes) → Prop
  | .opened requests, some pending =>
    (∀ id, requests.find? id = pending id) ∧ ∀ e ∈ requests, Fitting d e.1 e.2
  | .null, none | .freed, none => True
  | .opened _, none | .null, some _ | .freed, some _ => False

/-- The invariant of the runs. -/
structure Inv (d : Descriptors) (run : Run) : Prop where
  stored : ∃ h, run.storage.objectsMetadata = some h ∧
    Stored d run.objects.committed h run.storage.file
  tracks : Tracks d run.storage.transaction run.objects.pending

theorem LegalWrite.fitting (hlegal : LegalWrite d objectId data) : Fitting d objectId data := by
  obtain ⟨hpos, desc, hdesc, rfl, hmax⟩ := hlegal
  obtain ⟨info, hinfo, hid, hmax'⟩ := Descriptors.exists_info hdesc
  exact ⟨info, hinfo, hid, hpos, by omega⟩

theorem verifyFileMetadataSetup_eq {s : Storage} (hne : d.array ≠ []) (hh : s.objectsMetadata = some h)
    (hs : Stored d committed h file) : verifyFileMetadataSetup s = .ok h := by
  have hnum : h.objectsNum ≠ 0 := by
    rw [hs.objectsNum]
    exact fun hzero => hne (List.length_eq_zero_iff.1 hzero)
  rw [verifyFileMetadataSetup, hh]
  exact if_neg hnum

theorem verifyOperation_eq {s : Storage} (hne : d.array ≠ []) (hh : s.objectsMetadata = some h)
    (hs : Stored d committed h file) {info : MetadataObjectInfo} (hinfo : info ∈ d.infos) (n : ℕ) :
    verifyOperation s info.id n =
      if n = 0 ∨ info.maxSize < n then .error .WRONG_PARAMETER
      else .ok (h, current committed info) := by
  have hid := Descriptors.id_lt hinfo
  have hlast : ¬ h.objectsNum - 1 < info.id := by
    rw [hs.objectsNum]
    omega
  rw [verifyOperation, verifyFileMetadataSetup_eq hne hh hs, ok_bind, hs.getObjectInfo hinfo]
  dsimp only
  have hmax : (current committed info).maxSize = info.maxSize := rfl
  rw [require]
  by_cases hbad : n = 0 ∨ info.maxSize < n
  · rw [if_pos hbad, if_neg (fun hgood => hgood (Or.inr hbad))]
    rfl
  · rw [if_neg hbad, if_pos (by tauto)]
    rfl

open FileStorage

/-- The parameters of a legal write pass the check. -/
theorem Fitting.verifyOperation (hfit : Fitting d objectId data) {s : Storage} (hne : d.array ≠ [])
    (hh : s.objectsMetadata = some h) (hs : Stored d committed h file) :
    ∃ i, verifyOperation s objectId data.length = .ok (h, i) := by
  obtain ⟨info, hinfo, rfl, hpos, hmax⟩ := hfit
  rw [verifyOperation_eq hne hh hs hinfo, if_neg (by omega)]
  exact ⟨_, rfl⟩

theorem stored_writeAll {entries : List (ℕ × Bytes)} (hs : Stored d committed h file)
    (hfit : ∀ e ∈ entries, Fitting d e.1 e.2) (hnodup : (entries.map (·.1)).Nodup) :
    Stored d (fun id => ((entries.find? fun e => e.1 == id).map (·.2)).or (committed id))
      (entries.foldl (fun st it => handleObjectWrite st.1 st.2 it.1 it.2) (h, file)).1
      (entries.foldl (fun st it => handleObjectWrite st.1 st.2 it.1 it.2) (h, file)).2 := by
  induction entries generalizing committed h file with
  | nil => exact hs
  | cons e entries ih =>
    obtain ⟨info, hinfo, hid, hpos, hmax⟩ := hfit e List.mem_cons_self
    rw [List.map_cons, List.nodup_cons] at hnodup
    have hrest := ih (hs.write hinfo hpos hmax)
      (fun e' he' => hfit e' (List.mem_cons_of_mem e he')) hnodup.2
    have hcommitted : (fun id => (((e :: entries).find? fun e' => e'.1 == id).map (·.2)).or
        (committed id)) = fun id => ((entries.find? fun e' => e'.1 == id).map (·.2)).or
          (update committed info.id (some e.2) id) := by
      funext id
      by_cases heq : id = e.1
      · have hnone : (entries.find? fun e' => e'.1 == id) = none := by
          rw [List.find?_eq_none]
          intro e' he' hkey
          have hkey' : e'.1 = id := by simpa using hkey
          exact hnodup.1 (List.mem_map.2 ⟨e', he', hkey'.trans heq⟩)
        rw [hnone, List.find?_cons_of_pos (by simp [heq]), heq, ← hid]
        simp
      · rw [List.find?_cons_of_neg (by simpa using Ne.symm heq),
          update_of_ne (hid ▸ heq)]
    rw [List.foldl_cons, ← hid, hcommitted]
    exact hrest

/-! ## One call -/

section

variable (hne : d.array ≠ []) (hinv : Inv d run)

include hne hinv

theorem Inv.atomicWrite (hfit : Fitting d objectId data) :
    ∃ s, FileStorage.atomicWrite run.storage objectId data = .ok s ∧
      Inv d ⟨s, run.objects.next (.atomicWrite objectId data)⟩ := by
  obtain ⟨h, hh, hs⟩ := hinv.stored
  obtain ⟨i, hverify⟩ := hfit.verifyOperation hne hh hs
  obtain ⟨info, hinfo, rfl, hpos, hmax⟩ := hfit
  rw [FileStorage.atomicWrite, hverify]
  exact ⟨_, rfl, ⟨_, rfl, hs.write hinfo hpos hmax⟩, hinv.tracks⟩

theorem Inv.beginTransaction (hnull : run.storage.transaction.isNull) :
    ∃ s, beginAtomicWriteOnlyTransaction run.storage = .ok s ∧
      Inv d ⟨s, run.objects.next .beginAtomicWriteOnlyTransaction⟩ := by
  obtain ⟨h, hh, hs⟩ := hinv.stored
  rw [beginAtomicWriteOnlyTransaction, verifyFileMetadataSetup_eq hne hh hs]
  cases htrans : run.storage.transaction with
  | null =>
    refine ⟨_, rfl, ⟨h, hh, hs⟩, fun id => rfl, fun e he => ?_⟩
    exact absurd he (OrderedMap.not_mem_empty e)
  | opened requests | freed =>
    rw [htrans] at hnull
    exact absurd hnull (by simp [Transaction.isNull])

omit hne in
/-- A transaction is open exactly if the client has begun it. -/
theorem Inv.opened (hopen : run.objects.pending.isSome) :
    ∃ requests pending, run.storage.transaction = .opened requests ∧
      run.objects.pending = some pending ∧ (∀ id, requests.find? id = pending id) ∧
      ∀ e ∈ requests, Fitting d e.1 e.2 := by
  obtain ⟨pending, hpending⟩ := Option.isSome_iff_exists.1 hopen
  have htracks := hinv.tracks
  rw [hpending] at htracks
  cases htrans : run.storage.transaction with
  | null | freed =>
    rw [htrans] at htracks
    exact htracks.elim
  | opened requests =>
    rw [htrans] at htracks
    exact ⟨requests, pending, rfl, hpending, htracks⟩

theorem Inv.writeInTransaction (hfit : Fitting d objectId data) (hopen : run.objects.pending.isSome)
    (hnew : run.objects.pending.bind (fun p => p objectId) = none) :
    ∃ s, FileStorage.writeInTransaction run.storage objectId data = .ok s ∧
      Inv d ⟨s, run.objects.next (.writeInTransaction objectId data)⟩ := by
  obtain ⟨h, hh, hs⟩ := hinv.stored
  obtain ⟨i, hverify⟩ := hfit.verifyOperation hne hh hs
  obtain ⟨requests, pending, htrans, hpending, hfind, hentries⟩ := hinv.opened hopen
  have hnone : pending objectId = none := by
    rw [hpending] at hnew
    exact hnew
  have hinsert : ∀ id, (requests.insertNew objectId data).find? id =
      update pending objectId (some data) id := by
    intro id
    rw [OrderedMap.find?_insertNew, hfind]
    by_cases hid : id = objectId
    · subst hid
      simp [hnone]
    · rw [if_neg hid, Option.or_none, update_of_ne hid]
  rw [FileStorage.writeInTransaction, hverify, htrans]
  refine ⟨_, rfl, ⟨h, hh, hs⟩, ?_⟩
  simp only [Objects.next, hpending]
  refine ⟨hinsert, fun e he => ?_⟩
  have hvalue := hinsert e.1
  rw [OrderedMap.find?_eq_some_iff.2 (show (e.1, e.2) ∈ _ from he)] at hvalue
  by_cases hid : e.1 = objectId
  · rw [hid, update_self] at hvalue
    rw [hid, Option.some.inj hvalue]
    exact hfit
  · rw [update_of_ne hid, ← hfind] at hvalue
    exact hentries _ (OrderedMap.find?_eq_some_iff.1 hvalue.symm)

theorem Inv.commit (hopen : run.objects.pending.isSome) :
    ∃ s, commitAtomicWriteOnlyTransaction run.storage = .ok s ∧
      Inv d ⟨s, run.objects.next .commitAtomicWriteOnlyTransaction⟩ := by
  obtain ⟨h, hh, hs⟩ := hinv.stored
  obtain ⟨requests, pending, htrans, hpending, hfind, hentries⟩ := hinv.opened hopen
  have hnodup : (requests.entries.map (·.1)).Nodup :=
    List.pairwise_map.2 (requests.sorted.imp fun hlt => ne_of_lt hlt)
  have hcommitted : (run.objects.next .commitAtomicWriteOnlyTransaction).committed =
      fun id => ((requests.entries.find? fun e => e.1 == id).map (·.2)).or
        (run.objects.committed id) := by
    simp only [Objects.next, hpending, Option.bind_some, ← hfind]
    rfl
  rw [commitAtomicWriteOnlyTransaction, verifyFileMetadataSetup_eq hne hh hs, htrans]
  refine ⟨_, rfl, ⟨_, rfl, ?_⟩, trivial⟩
  rw [hcommitted]
  exact stored_writeAll hs hentries hnodup

theorem Inv.reopen (hunmoved : Unmoved d run.objects.committed) :
    ∃ s, openFile run.storage.file = .ok s ∧ Inv d ⟨s, run.objects.next .reopen⟩ := by
  obtain ⟨h, hh, hs⟩ := hinv.stored
  obtain ⟨h', hopen, hs'⟩ := hs.openFile hne hunmoved
  exact ⟨_, hopen, ⟨h', rfl, hs'⟩, trivial⟩

/-- **Every legal and clean call returns**, and the storage has the objects that it should have. -/
theorem Inv.apply {op : Operation} (hlegal : run.Legal d op) (hclean : run.Clean d op) :
    ∃ s, run.storage.apply op = .ok s ∧ Inv d ⟨s, run.objects.next op⟩ := by
  cases op with
  | atomicWrite objectId data => exact hinv.atomicWrite hne (LegalWrite.fitting hlegal)
  | beginAtomicWriteOnlyTransaction => exact hinv.beginTransaction hne hclean
  | writeInTransaction objectId data =>
    exact hinv.writeInTransaction hne (LegalWrite.fitting hlegal.1) hlegal.2 hclean
  | commitAtomicWriteOnlyTransaction => exact hinv.commit hne hlegal
  | reopen => exact hinv.reopen hne hclean

theorem Inv.next {op : Operation} (hlegal : run.Legal d op) (hclean : run.Clean d op) :
    ∃ run', Run.next run op = some run' ∧ Inv d run' := by
  obtain ⟨s, happly, hinv'⟩ := hinv.apply hne hlegal hclean
  refine ⟨_, ?_, hinv'⟩
  rw [Run.next, happly]

end

theorem Reaches.inv (hne : d.array ≠ []) (hreach : Reaches d (initial d) run) : Inv d run := by
  refine Machine.Reaches.invariant (Inv d) ?_ ?_ hreach
  · exact ⟨⟨_, rfl, stored_initial d⟩, trivial⟩
  · intro u op u' hinv hok hnext
    obtain ⟨u'', hnext', hinv'⟩ := hinv.next hne hok.1 hok.2
    obtain rfl := Option.some.inj (hnext.symm.trans hnext')
    exact hinv'

/-! ## Reading -/

/-- A read of an object with the bytes `data`: it gives these bytes and not more than the buffer has
    room for, or an error, but not if the buffer is large enough. -/
def Serves (result : Except StorageError Bytes) (data : Bytes) (bufferSize : ℕ) : Prop :=
  match result with
  | .ok out => out = data ∧ out.length ≤ bufferSize
  | .error _ => bufferSize < data.length

theorem Inv.read (hne : d.array ≠ []) (hinv : Inv d run) {info : MetadataObjectInfo}
    (hinfo : info ∈ d.infos) (hdata : run.objects.committed info.id = some data) (bufferSize : ℕ) :
    FileStorage.read run.storage info.id bufferSize =
      if bufferSize = 0 ∨ info.maxSize < bufferSize then .error .WRONG_PARAMETER else .ok data := by
  obtain ⟨h, hh, hs⟩ := hinv.stored
  obtain ⟨hfield, hpos, hmax⟩ := hs.objects info hinfo data hdata
  have hbounds := Descriptors.object_bounds hinfo
  have hlength := hs.length
  rw [FileStorage.read, verifyOperation_eq hne hh hs hinfo]
  split_ifs with hbad
  · rfl
  · rw [ok_bind, current_of_some hdata]
    dsimp only
    rw [readItem, if_neg (by omega), hfield]

/-- **Atomic and durable objects.** In every state that is reached by legal and clean calls, every
    further such call returns, and a read of an object gives the bytes of its last committed write
    exactly if the buffer is empty, or large enough and not larger than the room of the object. -/
theorem objects_durable (hne : d.array ≠ []) (hreach : Reaches d (initial d) run) :
    (∀ op, run.Legal d op → run.Clean d op → (next run op).isSome) ∧
      ∀ desc ∈ d.array, ∀ data bufferSize, run.objects.committed desc.id = some data →
        (Serves (read run.storage desc.id bufferSize) data bufferSize ↔
          bufferSize = 0 ∨ data.length ≤ bufferSize ∧ bufferSize ≤ desc.maxSize) := by
  have hinv := hreach.inv hne
  constructor
  · intro op hlegal hclean
    obtain ⟨run', hnext, -⟩ := hinv.next hne hlegal hclean
    rw [hnext]
    rfl
  · intro desc hdesc data bufferSize hdata
    obtain ⟨info, hinfo, hid, hmax⟩ := Descriptors.exists_info hdesc
    obtain ⟨h, -, hs⟩ := hinv.stored
    rw [← hid] at hdata ⊢
    obtain ⟨-, hpos, hroom⟩ := hs.objects info hinfo data hdata
    rw [hinv.read hne hinfo hdata]
    split_ifs with hbad
    · show bufferSize < data.length ↔ _
      omega
    · show data = data ∧ data.length ≤ bufferSize ↔ _
      simp only [true_and]
      omega

/-- Two objects, the array not in the order of the ids. -/
def twoObjects : Descriptors := ⟨[⟨1, 8⟩, ⟨0, 4⟩], by decide, by decide, by decide⟩

/-- Both objects are written before the file is opened again. -/
theorem objects_durable_twoObjects :
    ∃ run, Reaches twoObjects (initial twoObjects) run ∧
      Serves (read run.storage 1 3) [3, 4, 5] 3 ∧
      run.objects.committed 0 = some [7] ∧ run.objects.committed 1 = some [3, 4, 5] := by
  obtain ⟨run, hreach, hzero, hone⟩ : ∃ run, Reaches twoObjects (initial twoObjects) run ∧
      run.objects.committed 0 = some [7] ∧ run.objects.committed 1 = some [3, 4, 5] :=
    Machine.exists_reaches
      [.atomicWrite 0 [1, 2], .beginAtomicWriteOnlyTransaction, .writeInTransaction 1 [3, 4, 5],
        .commitAtomicWriteOnlyTransaction, .reopen, .beginAtomicWriteOnlyTransaction,
        .writeInTransaction 0 [7], .commitAtomicWriteOnlyTransaction] (by decide +kernel)
  refine ⟨run, hreach, ?_, hzero, hone⟩
  exact ((objects_durable (by decide) hreach).2 ⟨1, 8⟩ (by decide) [3, 4, 5] 3 hone).2 (by decide)

/-- The states after any legal calls. -/
def LegalReaches (d : Descriptors) : Run → Run → Prop :=
  Machine.Reaches next fun run op => run.Legal d op

/-- Legal calls that go wrong:
    - a read of three bytes with room for two gives all three, and one with more room than the object
      can have gives an error;
    - of two writes in a transaction the first wins;
    - in a second transaction a write uses the deleted one;
    - an object that was written is not there when the file is opened again, because its record was
      not written to the place from which it is read. -/
theorem legal_calls_lose_objects :
    (∃ run, LegalReaches twoObjects (initial twoObjects) run ∧
      run.objects.committed 0 = some [1, 2, 3] ∧
      read run.storage 0 2 = .ok [1, 2, 3] ∧
      read run.storage 0 5 = .error .WRONG_PARAMETER) ∧
    (∃ run, LegalReaches twoObjects (initial twoObjects) run ∧
      run.objects.committed 0 = some [2] ∧ read run.storage 0 1 = .ok [1]) ∧
    (∃ run, LegalReaches twoObjects (initial twoObjects) run ∧
      run.Legal twoObjects (.writeInTransaction 0 [2]) ∧
      run.storage.apply (.writeInTransaction 0 [2]) = .error .useAfterFree) ∧
    ∃ run, LegalReaches twoObjects (initial twoObjects) run ∧
      run.objects.committed 0 = some [1, 2, 3] ∧
      read run.storage 0 3 = .error .FAILED_TO_READ_OBJECT := by
  refine ⟨?_, ?_, ?_, ?_⟩
  · exact Machine.exists_reaches [.atomicWrite 0 [1, 2, 3]] (by decide +kernel)
  · exact Machine.exists_reaches [.beginAtomicWriteOnlyTransaction, .writeInTransaction 0 [1],
      .writeInTransaction 0 [2], .commitAtomicWriteOnlyTransaction] (by decide +kernel)
  · obtain ⟨run, hreach, hlegal, hfails⟩ : ∃ run, LegalReaches twoObjects (initial twoObjects) run ∧
        run.Legal twoObjects (.writeInTransaction 0 [2]) ∧
        (match run.storage.apply (.writeInTransaction 0 [2]) with
          | .error e => decide (e = .useAfterFree)
          | .ok _ => false) = true :=
      Machine.exists_reaches [.beginAtomicWriteOnlyTransaction, .commitAtomicWriteOnlyTransaction,
        .beginAtomicWriteOnlyTransaction] (by decide +kernel)
    refine ⟨run, hreach, hlegal, ?_⟩
    split at hfails
    · next e he => rw [he, of_decide_eq_true hfails]
    · simp at hfails
  · exact Machine.exists_reaches [.atomicWrite 0 [1, 2, 3], .reopen] (by decide +kernel)

end Run

end ConcordBft.FileStorage
