import ConcordBft.Lib.Machine
import ConcordBft.MembershipService.SimpleAppState

set_option autoImplicit false

/-! # The membership documents as maps

Each document is to be a map from ids to objects. An update builds a whole new document: the two
reserved fields, a copy of the other entries, and the new object under its id. The database stores it
if its text is JSON and its revision is the current one. So the map is right after an update exactly if
the id is not one of the reserved fields and no key is empty (`Clean`). -/

namespace ConcordBft.MembershipService

open Checked Object Function

/-! ## The copied entries -/

variable {o body body' : Object} {idToChange : String} {key : String}

theorem isCopied_iff :
    isCopied idToChange key = true ↔ key ≠ "_id" ∧ key ≠ "_rev" ∧ key ≠ idToChange := by
  simp [isCopied, and_assoc]

/-- All the entries that are copied are objects. -/
def CanCopy (o : Object) (idToChange : String) (entries : List (String × Value)) : Prop :=
  ∀ kv ∈ entries, isCopied idToChange kv.1 = true → (o.object? kv.1).isSome

/-- The copy succeeds if the entries are objects, and has them in addition to what was there. -/
theorem copyEntries_spec (o : Object) (idToChange : String) {entries : List (String × Value)}
    (h : CanCopy o idToChange entries) (body : Object) :
    ∃ body', copyEntries o idToChange entries body = .ok body' ∧
      (∀ key, body'.find? key =
        if (entries.any fun e => e.1 == key) && isCopied idToChange key then
          (o.object? key).map Value.object
        else body.find? key) ∧
      ∀ e ∈ body', e ∈ body ∨ ∃ sub, e.2 = .object sub ∧ o.object? e.1 = some sub := by
  induction entries generalizing body with
  | nil => exact ⟨body, rfl, fun key => by simp, fun e he => Or.inl he⟩
  | cons kv rest ih =>
    have hrest : CanCopy o idToChange rest := fun e he => h e (List.mem_cons_of_mem kv he)
    rw [copyEntries]
    by_cases hcopied : isCopied idToChange kv.1 = true
    · obtain ⟨sub, hsub⟩ := Option.isSome_iff_exists.1 (h kv List.mem_cons_self hcopied)
      obtain ⟨body', hok, hfind, hmem⟩ := ih hrest (body.set kv.1 (.object sub))
      rw [if_pos hcopied, getObject, hsub]
      refine ⟨body', hok, fun key => ?_, fun e he => ?_⟩
      · rw [hfind, find?_set, List.any_cons]
        by_cases hkey : key = kv.1
        · subst hkey
          simp [hcopied, hsub]
        · have hne : (kv.1 == key) = false := by simpa using Ne.symm hkey
          rw [hne, Bool.false_or, if_neg hkey]
      · rcases hmem e he with he | hcopy
        · rcases OrderedMap.mem_insertEntry_of he with rfl | he
          · exact Or.inr ⟨sub, rfl, hsub⟩
          · exact Or.inl he
        · exact Or.inr hcopy
    · obtain ⟨body', hok, hfind, hmem⟩ := ih hrest body
      rw [if_neg hcopied]
      refine ⟨body', hok, fun key => ?_, hmem⟩
      rw [hfind, List.any_cons]
      by_cases hkey : key = kv.1
      · subst hkey
        simp [hcopied]
      · have hne : (kv.1 == key) = false := by simpa using Ne.symm hkey
        rw [hne, Bool.false_or]

/-- The copy fails if one of the entries is not an object. -/
theorem canCopy_of_copyEntries {entries : List (String × Value)}
    (h : copyEntries o idToChange entries body = .ok body') : CanCopy o idToChange entries := by
  induction entries generalizing body with
  | nil => exact nofun
  | cons kv rest ih =>
    rw [copyEntries] at h
    intro e he hcopied
    by_cases hc : isCopied idToChange kv.1 = true
    · rw [if_pos hc, getObject, asserted_bind_eq_ok] at h
      obtain ⟨sub, hsub, hrest⟩ := h
      rcases List.mem_cons.1 he with rfl | he
      · rw [hsub]
        rfl
      · exact ih hrest e he hcopied
    · rw [if_neg hc] at h
      rcases List.mem_cons.1 he with rfl | he
      · exact absurd hcopied hc
      · exact ih h e he hcopied

theorem Object.exists_mem_of_find? {v : Value} (h : o.find? key = some v) : (key, v) ∈ o := by
  obtain ⟨e, he, rfl⟩ := Option.map_eq_some_iff.1 h
  have hkey : e.1 = key := by simpa using List.find?_some he
  rw [← hkey]
  exact List.mem_of_find?_eq_some he

theorem Object.exists_find?_of_mem {v : Value} (h : (key, v) ∈ o) :
    ∃ v', o.find? key = some v' := by
  have hsome : (List.find? (fun e => e.1 == key) o).isSome := by
    rw [List.find?_isSome]
    exact ⟨(key, v), h, by simp⟩
  obtain ⟨e, he⟩ := Option.isSome_iff_exists.1 hsome
  exact ⟨e.2, by rw [find?, he]; rfl⟩

theorem Object.object?_of_string? {key s : String} (h : o.string? key = some s) :
    o.object? key = none := by
  obtain ⟨v, hv, hs⟩ := Option.bind_eq_some_iff.1 h
  rw [object?, hv]
  cases v with
  | string s => rfl
  | number _ | boolean _ | null | array _ | object _ => exact absurd hs (by simp [Value.asString])

theorem Object.noEmptyKeys_of_object? (h : o.noEmptyKeys = true) {sub : Object}
    (hsub : o.object? key = some sub) : sub.noEmptyKeys = true ∧ key ≠ "" := by
  obtain ⟨v, hv, hobject⟩ := Option.bind_eq_some_iff.1 hsub
  obtain ⟨hkey, hvalue⟩ := noEmptyKeys_iff.1 h _ (exists_mem_of_find? hv)
  cases v with
  | object kvMap =>
    obtain rfl : kvMap = sub := Option.some.inj hobject
    exact ⟨hvalue, hkey⟩
  | number _ | boolean _ | null | array _ | string _ =>
    exact absurd hobject (by simp [Value.asObject])

/-! ## One document -/

/-- The two reserved fields of a new document. -/
def reservedFields (name rev : String) : Object :=
  (Object.set [] "_id" (.string name)).set "_rev" (.string rev)

theorem find?_reservedFields (name rev key : String) :
    (reservedFields name rev).find? key =
      if key = "_rev" then some (.string rev) else if key = "_id" then some (.string name) else none := by
  rw [reservedFields, find?_set, find?_set]
  rfl

/-- A document with a name and a map from ids to objects. -/
structure IsDocument (o : Object) (name : String) (content : String → Option Object) : Prop where
  id : o.string? "_id" = some name
  rev : (o.string? "_rev").isSome
  objects : ∀ kv ∈ o, kv.1 ≠ "_id" → kv.1 ≠ "_rev" → (o.object? kv.1).isSome
  json : o.noEmptyKeys = true
  content : ∀ id, o.object? id = content id

/-- The ids and objects that an update stores as they are. -/
def Clean (id : String) (sub : Object) : Prop :=
  id ≠ "_id" ∧ id ≠ "_rev" ∧ id ≠ "" ∧ sub.noEmptyKeys = true

instance (id : String) (sub : Object) : Decidable (Clean id sub) :=
  inferInstanceAs (Decidable (_ ∧ _ ∧ _ ∧ _))

section

variable {name : String} {content : String → Option Object} {id rev : String} {sub : Object}

theorem IsDocument.canCopy (h : IsDocument o name content) (id : String) : CanCopy o id o := by
  intro kv hkv hcopied
  obtain ⟨hid, hrev, -⟩ := isCopied_iff.1 hcopied
  exact h.objects kv hkv hid hrev

section

variable (h : IsDocument o name content) (hbody : copyEntries o id o (reservedFields name rev) = .ok body)
include h hbody

/-- The new document, before the database gives it a revision. -/
theorem IsDocument.find?_newBody (sub : Object) (key : String) :
    (body.set id (.object sub)).find? key =
      if key = id then some (.object sub)
      else if key = "_rev" then some (.string rev)
      else if key = "_id" then some (.string name)
      else (content key).map Value.object := by
  obtain ⟨body', hok, hfind, -⟩ := copyEntries_spec o id (h.canCopy id) (reservedFields name rev)
  obtain rfl : body = body' := Except.ok.inj (hbody.symm.trans hok)
  rw [find?_set, hfind, find?_reservedFields]
  split_ifs with hid hcopied hrev hid' hrev hid'
  · rfl
  · simp [isCopied, hrev] at hcopied
  · simp [isCopied, hid'] at hcopied
  · rw [h.content]
  · rfl
  · rfl
  · -- the key is not in the document
    have hnone : content key = none := by
      rw [← h.content, ← Option.not_isSome_iff_eq_none]
      intro hsome
      obtain ⟨sub', hsub'⟩ := Option.isSome_iff_exists.1 hsome
      obtain ⟨v, hv, -⟩ := Option.bind_eq_some_iff.1 hsub'
      refine hcopied ?_
      rw [Bool.and_eq_true, List.any_eq_true]
      refine ⟨⟨(key, v), exists_mem_of_find? hv, by simp⟩, ?_⟩
      exact isCopied_iff.2 ⟨hid', hrev, hid⟩
    rw [hnone]
    rfl

theorem IsDocument.noEmptyKeys_newBody (hid : id ≠ "") (hsub : sub.noEmptyKeys = true) :
    (body.set id (.object sub)).noEmptyKeys = true := by
  obtain ⟨body', hok, -, hmem⟩ := copyEntries_spec o id (h.canCopy id) (reservedFields name rev)
  obtain rfl : body = body' := Except.ok.inj (hbody.symm.trans hok)
  refine noEmptyKeys_set ?_ hid hsub
  rw [noEmptyKeys_iff]
  intro e he
  rcases hmem e he with he | ⟨sub', hvalue, hsub'⟩
  · have hreserved : (reservedFields name rev).noEmptyKeys = true :=
      noEmptyKeys_set (noEmptyKeys_set rfl (by decide) rfl) (by decide) rfl
    exact noEmptyKeys_iff.1 hreserved e he
  · obtain ⟨hkeys, hkey⟩ := noEmptyKeys_of_object? h.json hsub'
    rw [hvalue]
    exact ⟨hkey, hkeys⟩

/-- **A clean update of a document** changes the object of its id. -/
theorem IsDocument.newDocument (hclean : Clean id sub) (newRev : String) :
    IsDocument ((body.set id (.object sub)).set "_rev" (.string newRev)) name
      (Function.update content id (some sub)) := by
  obtain ⟨hne, hneRev, hempty, hsub⟩ := hclean
  have hfind := h.find?_newBody hbody sub
  have hcontent : ∀ key, ((body.set id (.object sub)).set "_rev" (.string newRev)).object? key =
      Function.update content id (some sub) key := by
    intro key
    rw [object?_set, object?, hfind]
    by_cases hkey : key = id
    · subst hkey
      rw [if_neg hneRev, if_pos rfl, update_self]
      rfl
    · rw [update_of_ne hkey]
      by_cases hrev : key = "_rev"
      · obtain ⟨r, hr⟩ := Option.isSome_iff_exists.1 h.rev
        rw [← h.content, hrev, object?_of_string? hr]
        rfl
      · split_ifs with hid
        · rw [← h.content, hid, object?_of_string? h.id]
          rfl
        · cases content key with
          | none => rfl
          | some sub' => rfl
  have hjson := h.noEmptyKeys_newBody hbody hempty hsub
  refine ⟨?_, ?_, fun kv hkv hid hrev => ?_, ?_, hcontent⟩
  · rw [string?_set, string?, hfind, if_neg (Ne.symm hne)]
    rfl
  · rw [string?_set]
    rfl
  · rw [hcontent]
    by_cases hkey : kv.1 = id
    · rw [hkey, update_self]
      rfl
    · rw [update_of_ne hkey]
      rcases OrderedMap.mem_insertEntry_of hkv with rfl | hkv
      · exact absurd rfl hrev
      · obtain ⟨v, hv⟩ := exists_find?_of_mem (v := kv.2) hkv
        rw [hfind, if_neg hkey, if_neg hrev, if_neg hid] at hv
        obtain ⟨sub', hsub', -⟩ := Option.map_eq_some_iff.1 hv
        rw [hsub']
        rfl
  · exact noEmptyKeys_set hjson (by decide) rfl

end

end

/-! ## Requests -/

variable {lib : Libraries} {couch couch' : CouchDB} {mode : Mode} {request : Object} {proof : String}

theorem Mode.name_injective {m m' : Mode} (h : m.name = m'.name) : m = m' :=
  Option.some.inj ((Mode.ofName_eq_some_iff.2 h.symm).symm.trans
    (Mode.ofName_eq_some_iff.2 rfl))

/-- An update returns if its fields are there, the document has a revision and its other entries are
    objects. -/
theorem update_eq_ok_iff :
    update lib couch mode request proof = .ok couch' ↔
      mode.certificate request = .ok () ∧
      ∃ rev, (couch.doc mode.name).string? "_rev" = some rev ∧
      ∃ id, request.string? mode.idField = some id ∧
      ∃ body, copyEntries (couch.doc mode.name) id (couch.doc mode.name)
        (reservedFields mode.name rev) = .ok body ∧
      ∃ sub, mode.subJson request proof = .ok sub ∧
      couch.put lib (body.set id (.object sub)) = couch' := by
  unfold update
  constructor
  · intro h
    obtain ⟨⟨⟩, hcert, h⟩ := bind_eq_ok h
    obtain ⟨rev, hrev, h⟩ := asserted_bind_eq_ok.1 h
    obtain ⟨id, hid, h⟩ := asserted_bind_eq_ok.1 h
    obtain ⟨body, hbody, h⟩ := bind_eq_ok h
    obtain ⟨sub, hsub, h⟩ := bind_eq_ok h
    exact ⟨hcert, rev, hrev, id, hid, body, hbody, sub, hsub, Except.ok.inj h⟩
  · rintro ⟨hcert, rev, hrev, id, hid, body, hbody, sub, hsub, rfl⟩
    rw [hcert]
    dsimp only [getString]
    rw [hrev, asserted_some_bind, hid, asserted_some_bind, ← reservedFields, hbody, hsub]
    rfl

/-- An update request, with the mode, the id and the object to be stored. -/
def updateOf (lib : Libraries) (request : List Char) (proof : String) :
    Option (Mode × String × Object) := do
  let json := lib.parse request
  let mode ← Mode.ofName (← json.string? "Mode")
  let _ ← (mode.certificate json).toOption
  let id ← json.string? mode.idField
  let sub ← (mode.subJson json proof).toOption
  pure (mode, id, sub)

theorem toOption_eq_some_iff {α ε : Type} {x : Except ε α} {a : α} :
    x.toOption = some a ↔ x = .ok a := by
  cases x with
  | error e | ok b => simp [Except.toOption]

theorem updateOf_eq_some_iff {request : List Char} {id : String} {sub : Object} :
    updateOf lib request proof = some (mode, id, sub) ↔
      (lib.parse request).string? "Mode" = some mode.name ∧
      mode.certificate (lib.parse request) = .ok () ∧
      (lib.parse request).string? mode.idField = some id ∧
      mode.subJson (lib.parse request) proof = .ok sub := by
  simp only [updateOf, Option.bind_eq_bind, Option.bind_eq_some_iff, toOption_eq_some_iff,
    Mode.ofName_eq_some_iff, Option.pure_def, Option.some.injEq, Prod.mk.injEq]
  constructor
  · rintro ⟨s, hs, m, rfl, ⟨⟩, hcert, i, hi, o, ho, rfl, rfl, rfl⟩
    exact ⟨hs, hcert, hi, ho⟩
  · rintro ⟨hs, hcert, hi, ho⟩
    exact ⟨_, hs, mode, rfl, (), hcert, id, hi, sub, ho, rfl, rfl, rfl⟩

/-- A call of `execute` for an update: the request, and the certificate in the reply buffer. -/
structure UpdateCall where
  request : List Char
  outReply : List Char
  outActualReplySize : ℕ

/-- The message as far as it was written. -/
def UpdateCall.fullCommitProofMessage (call : UpdateCall) : String :=
  String.ofList (call.outReply.take call.outActualReplySize)

/-- The database together with the maps that its documents should be. -/
structure Run where
  couch : CouchDB
  content : Mode → String → Option Object

namespace Run

/-- The map of one document changes at one id. -/
def store (content : Mode → String → Option Object) (mode : Mode) (id : String) (sub : Object) :
    Mode → String → Option Object :=
  Function.update content mode (Function.update (content mode) id (some sub))

/-- `none` for a request that is not an update, or if `execute` does not return. -/
def next (lib : Libraries) (run : Run) (call : UpdateCall) : Option Run :=
  match updateOf lib call.request call.fullCommitProofMessage,
      execute lib 0 run.couch false call.request call.outReply call.outActualReplySize with
  | some (mode, id, sub), .ok out => some ⟨out.couch, store run.content mode id sub⟩
  | _, _ => none

/-- The documents are what they should be. -/
def Agrees (run : Run) : Prop :=
  ∀ mode : Mode, IsDocument (run.couch.doc mode.name) mode.name (run.content mode)

/-- Updates with clean ids and objects. -/
def Allowed (lib : Libraries) (_ : Run) (call : UpdateCall) : Prop :=
  ∃ mode id sub, updateOf lib call.request call.fullCommitProofMessage = some (mode, id, sub) ∧ Clean id sub

/-- Runs of allowed calls. -/
def Reaches (lib : Libraries) : Run → Run → Prop := Machine.Reaches (next lib) (Allowed lib)

variable {run : Run} {call : UpdateCall} {id : String} {sub : Object}

/-- A well-formed update of documents that agree returns. -/
theorem Agrees.execute_update (h : run.Agrees)
    (hupdate : updateOf lib call.request call.fullCommitProofMessage = some (mode, id, sub)) :
    ∃ rev body, (run.couch.doc mode.name).string? "_rev" = some rev ∧
      copyEntries (run.couch.doc mode.name) id (run.couch.doc mode.name)
        (reservedFields mode.name rev) = .ok body ∧
      next lib run call = some ⟨run.couch.put lib (body.set id (.object sub)),
        store run.content mode id sub⟩ := by
  obtain ⟨hmode, hcert, hid, hsub⟩ := updateOf_eq_some_iff.1 hupdate
  obtain ⟨rev, hrev⟩ := Option.isSome_iff_exists.1 (h mode).rev
  obtain ⟨body, hbody, -⟩ := copyEntries_spec _ id ((h mode).canCopy id)
    (reservedFields mode.name rev)
  refine ⟨rev, body, hrev, hbody, ?_⟩
  have hok : update lib run.couch mode (lib.parse call.request) call.fullCommitProofMessage =
      .ok (run.couch.put lib (body.set id (.object sub))) :=
    update_eq_ok_iff.2 ⟨hcert, rev, hrev, id, hid, body, hbody, sub, hsub, rfl⟩
  have hname : Mode.ofName mode.name = some mode := Mode.ofName_eq_some_iff.2 rfl
  unfold next
  rw [hupdate]
  unfold execute
  dsimp only [getString]
  rw [hmode, asserted_some_bind, hname]
  dsimp only
  rw [← UpdateCall.fullCommitProofMessage, hok]
  rfl

theorem put_of_clean {rev : String} {body : Object} (h : run.Agrees)
    (hrev : (run.couch.doc mode.name).string? "_rev" = some rev)
    (hbody : copyEntries (run.couch.doc mode.name) id (run.couch.doc mode.name)
      (reservedFields mode.name rev) = .ok body) (hclean : Clean id sub) :
    run.couch.put lib (body.set id (.object sub)) =
      ⟨Function.update run.couch.doc mode.name ((body.set id (.object sub)).set "_rev"
        (.string (lib.newRev mode.name (body.set id (.object sub)))))⟩ := by
  have hfind := (h mode).find?_newBody hbody sub
  have hjson := (h mode).noEmptyKeys_newBody hbody hclean.2.2.1 hclean.2.2.2
  have hid : (body.set id (.object sub)).string? "_id" = some mode.name := by
    rw [string?, hfind, if_neg (Ne.symm hclean.1)]
    rfl
  have hrev' : (body.set id (.object sub)).string? "_rev" = some rev := by
    rw [string?, hfind, if_neg (Ne.symm hclean.2.1)]
    rfl
  unfold CouchDB.put
  rw [hid, hrev']
  dsimp only
  rw [if_pos ⟨hjson, hrev⟩]

theorem put_of_not_clean {body : Object} (hclean : ¬ Clean id sub) :
    run.couch.put lib (body.set id (.object sub)) = run.couch := by
  have hset : (body.set id (.object sub)).string? id = none := by
    rw [string?_set, if_pos rfl]
    rfl
  unfold CouchDB.put
  by_cases hid : id = "_id"
  · rw [← hid, hset]
  by_cases hrev : id = "_rev"
  · rw [← hrev, hset]
    cases (body.set id (.object sub)).string? "_id" with
    | none => rfl
    | some name => rfl
  -- the text of the document is not JSON
  have hjson : ¬ (body.set id (.object sub)).noEmptyKeys = true := by
    intro hjson
    have hfind : (body.set id (.object sub)).object? id = some sub := by
      rw [object?_set, if_pos rfl]
      rfl
    obtain ⟨hsub, hempty⟩ := noEmptyKeys_of_object? hjson hfind
    exact hclean ⟨hid, hrev, hempty, hsub⟩
  split
  · rw [if_neg fun hc => hjson hc.1]
  · rfl

/-- **An update** returns, and the documents are what they should be afterwards exactly if its id and
    its object are clean. -/
theorem Agrees.next (h : run.Agrees)
    (hupdate : updateOf lib call.request call.fullCommitProofMessage = some (mode, id, sub)) :
    ∃ run', Run.next lib run call = some run' ∧ (run'.Agrees ↔ Clean id sub) := by
  obtain ⟨rev, body, hrev, hbody, hnext⟩ := h.execute_update hupdate
  refine ⟨_, hnext, ?_⟩
  by_cases hclean : Clean id sub
  · refine iff_of_true (fun mode' => ?_) hclean
    rw [put_of_clean h hrev hbody hclean]
    by_cases hmode : mode' = mode
    · subst hmode
      simp only [store, update_self]
      exact (h mode').newDocument hbody hclean _
    · have hname : mode'.name ≠ mode.name := fun hname => hmode (Mode.name_injective hname)
      simp only [store, update_of_ne hmode, update_of_ne hname]
      exact h mode'
  · refine iff_of_false (fun hagrees => ?_) hclean
    have hdoc := (hagrees mode).content id
    rw [put_of_not_clean hclean] at hdoc
    simp only [store, update_self] at hdoc
    -- an object that is stored is clean
    obtain ⟨hsub, hempty⟩ := noEmptyKeys_of_object? (h mode).json hdoc
    obtain ⟨r, hr⟩ := Option.isSome_iff_exists.1 (h mode).rev
    refine hclean ⟨?_, ?_, hempty, hsub⟩
    · rintro rfl
      rw [object?_of_string? (h mode).id] at hdoc
      simp at hdoc
    · rintro rfl
      rw [object?_of_string? hr] at hdoc
      simp at hdoc

theorem Reaches.agrees {start : Run} (h : Reaches lib start run) (hstart : start.Agrees) :
    run.Agrees := by
  refine Machine.Reaches.invariant Agrees hstart ?_ h
  rintro u call u' hagrees ⟨mode, id, sub, hupdate, hclean⟩ hnext
  obtain ⟨u'', hnext', hiff⟩ := hagrees.next hupdate
  obtain rfl := Option.some.inj (hnext.symm.trans hnext')
  exact hiff.2 hclean

/-- A read of an object that is there gives its text. -/
theorem Agrees.execute_read (h : run.Agrees) (hmode : mode ≠ .emulators) {request : List Char}
    (hname : (lib.parse request).string? "Mode" = some mode.name)
    (hid : (lib.parse request).string? mode.idField = some id)
    (hsub : run.content mode id = some sub) (fuel : ℕ) (outReply : List Char)
    (outActualReplySize : ℕ) :
    execute lib fuel run.couch true request outReply outActualReplySize =
      .ok ⟨run.couch, some (Object.json sub), (Object.json sub).length⟩ := by
  have hread : readDocument run.couch mode (lib.parse request) = .ok (json sub) := by
    rw [← (h mode).content] at hsub
    rw [readDocument, getString, hid, asserted_some_bind, getObject, hsub]
    rfl
  have hof : Mode.ofName mode.name = some mode := Mode.ofName_eq_some_iff.2 rfl
  unfold execute
  dsimp only [getString]
  rw [hname, asserted_some_bind, hof]
  cases mode with
  | emulators => exact absurd rfl hmode
  | public_keys | quorum_size | byzantine_groups | super_leafs =>
    dsimp only
    rw [hread]
    rfl

/-- **The documents are maps.** After any well-formed updates with clean ids and objects, every
    document has its own name, a read gives the object that was stored last under its id, and a further
    well-formed update returns and leaves documents that are right exactly if it is clean. -/
theorem documents_are_maps {start : Run} (hstart : start.Agrees) (h : Reaches lib start run) :
    (∀ mode : Mode, (run.couch.doc mode.name).string? "_id" = some mode.name) ∧
      (∀ mode id sub request, mode ≠ .emulators →
        (lib.parse request).string? "Mode" = some mode.name →
        (lib.parse request).string? mode.idField = some id → run.content mode id = some sub →
        ∀ fuel outReply outActualReplySize,
          execute lib fuel run.couch true request outReply outActualReplySize =
            .ok ⟨run.couch, some (Object.json sub), (Object.json sub).length⟩) ∧
      ∀ call mode id sub,
        updateOf lib call.request call.fullCommitProofMessage = some (mode, id, sub) →
        ∃ run', next lib run call = some run' ∧ run'.content = store run.content mode id sub ∧
          (run'.Agrees ↔ Clean id sub) := by
  have hagrees := h.agrees hstart
  refine ⟨fun mode => (hagrees mode).id, ?_, ?_⟩
  · intro mode id sub request hmode hname hid hsub fuel outReply outActualReplySize
    exact hagrees.execute_read hmode hname hid hsub fuel outReply outActualReplySize
  · intro call mode id sub hupdate
    obtain ⟨rev, body, -, -, hnext⟩ := hagrees.execute_update hupdate
    obtain ⟨run', hnext', hiff⟩ := hagrees.next hupdate
    refine ⟨run', hnext', ?_, hiff⟩
    rw [hnext] at hnext'
    rw [← Option.some.inj hnext']

/-- A request that sets the address of a leader. -/
def leaderUpdate (id : String) : Object :=
  [("BGID", .string id), ("IP", .string "10.0.0.1"), ("Mode", .string "byzantine_groups")]

/-- A request that reads it. -/
def leaderRead (id : String) : Object := [("BGID", .string id), ("Mode", .string "byzantine_groups")]

/-- The requests are sent as the texts of these objects. -/
def leaderRequests : Libraries :=
  .ofObjects [leaderUpdate "1", leaderRead "1", leaderUpdate "_rev", leaderRead "_rev",
    leaderUpdate "", leaderRead ""]

/-- Documents with an empty object under the id `0`. -/
def sampleDocuments : CouchDB :=
  ⟨fun name => [("0", .object []), ("_id", .string name), ("_rev", .string "1")]⟩

/-- The documents and what they stand for. -/
def sampleStart : Run := ⟨sampleDocuments, fun mode id => (sampleDocuments.doc mode.name).object? id⟩

theorem sampleStart_agrees : sampleStart.Agrees := by
  intro mode
  refine ⟨rfl, rfl, ?_, rfl, fun _ => rfl⟩
  intro kv hkv hid hrev
  simp only [sampleStart, sampleDocuments, List.mem_cons, List.not_mem_nil, or_false] at hkv
  rcases hkv with rfl | rfl | rfl
  · rfl
  · exact absurd rfl hid
  · exact absurd rfl hrev

/-- The object that an update of `leaderRequests` stores. -/
def leader : Object := [("cert", .string ""), ("leader_ip", .string "10.0.0.1")]

theorem documents_are_maps_leader :
    ∃ run, Reaches leaderRequests sampleStart run ∧
      run.content .byzantine_groups "1" = some leader ∧
      execute leaderRequests 0 run.couch true (leaderRead "1").json [] 0 =
        .ok ⟨run.couch, some (Object.json leader), (Object.json leader).length⟩ := by
  have hupdate : updateOf leaderRequests (leaderUpdate "1").json "" =
    some (.byzantine_groups, "1", leader) := rfl
  obtain ⟨-, -, hnext⟩ := documents_are_maps sampleStart_agrees (Machine.Reaches.refl _)
  obtain ⟨run, hrun, hcontent, -⟩ := hnext ⟨(leaderUpdate "1").json, [], 0⟩ _ _ _ hupdate
  have hclean : Clean "1" leader := by decide
  have hreach : Reaches leaderRequests sampleStart run :=
    Machine.Reaches.snoc (Machine.Reaches.refl _) ⟨_, _, _, hupdate, hclean⟩ hrun
  have hleader : run.content .byzantine_groups "1" = some leader := by
    rw [hcontent]
    rfl
  refine ⟨run, hreach, hleader, ?_⟩
  exact (documents_are_maps sampleStart_agrees hreach).2.1 .byzantine_groups "1" leader
    (leaderRead "1").json (by decide) rfl rfl hleader 0 [] 0

/-- Two updates with ids that a client may send, `_rev` and the empty string: `execute` replies that the
    update is done, but the database has refused the document, and a read of the id fails. -/
theorem documents_lose_update :
    (∃ out run, execute leaderRequests 0 sampleDocuments false (leaderUpdate "_rev").json [] 0 = .ok out ∧
      out.reply = some (replyMsgJson "") ∧
      next leaderRequests sampleStart ⟨(leaderUpdate "_rev").json, [], 0⟩ = some run ∧
      run.content .byzantine_groups "_rev" = some leader ∧
      execute leaderRequests 0 run.couch true (leaderRead "_rev").json [] 0 = .error .assertion) ∧
    ∃ out run, execute leaderRequests 0 sampleDocuments false (leaderUpdate "").json [] 0 = .ok out ∧
      out.reply = some (replyMsgJson "") ∧
      next leaderRequests sampleStart ⟨(leaderUpdate "").json, [], 0⟩ = some run ∧
      run.content .byzantine_groups "" = some leader ∧
      execute leaderRequests 0 run.couch true (leaderRead "").json [] 0 = .error .assertion :=
  ⟨⟨_, _, rfl, rfl, rfl, rfl, rfl⟩, ⟨_, _, rfl, rfl, rfl, rfl, rfl⟩⟩

end Run

end ConcordBft.MembershipService
