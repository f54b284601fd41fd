import ConcordBft.MembershipService.Documents

set_option autoImplicit false

/-! # Requests that are answered safely

`execute` takes the fields of a request and of the documents as if they were there, and copies the
reply as if the buffer were large enough. `Answerable` says exactly when this is so. For the emulators
of a virtual node it says which nodes the search leaves in its queue: it goes down level by level to
the first leaf, and the rest of this level and the nodes below its beginning are left. -/

namespace ConcordBft.MembershipService

open Checked Object Mode List
open Run (leaderRead)

/-- A request is answered: `execute` returns, what it copies to the reply buffer has room there together
    with the zero byte, and `outActualReplySize` is the size of the reply. -/
def Safe (lib : Libraries) (couch : CouchDB) (readOnly : Bool) (request outReply : List Char)
    (outActualReplySize maxReplySize : ℕ) : Prop :=
  ∃ fuel out, execute lib fuel couch readOnly request outReply outActualReplySize = .ok out ∧
    match out.reply with
    | some text => text.length + 1 ≤ maxReplySize ∧ out.outActualReplySize = text.length
    | none => out.outActualReplySize = 0

/-! ## Walking the topology -/

section

variable (topology : Object) (parentToExclude : String)

/-- The parent of a node, if the topology has one. -/
def parent? (node : String) : Option String :=
  (topology.object? node).bind fun o => o.string? "parent"

theorem parentOf_eq (node : String) :
    parentOf topology node = asserted (parent? topology node) := by
  rw [parentOf, parent?, getObject]
  cases topology.object? node with
  | none => rfl
  | some o => rfl

/-- The `n`-th node above. -/
def ancestor? : ℕ → String → Option String
  | 0, node => some node
  | n + 1, node => (parent? topology node).bind (ancestor? n)

/-- The children that the search visits. -/
def children? (node : String) : Option (List String) :=
  ((topology.object? node).bind fun o => o.array? "children").map leadingStrings

/-- The node has children that the search goes on with. -/
def IsInner (node : String) : Prop :=
  ∃ cs, children? topology node = some cs ∧ cs ≠ []

/-- The nodes one level below, without the excluded one. -/
def below (nodes : List String) : List String :=
  nodes.flatMap fun node =>
    ((children? topology node).getD []).filter fun s => s != parentToExclude

/-- The nodes `h` levels below. -/
def level : ℕ → List String → List String
  | 0, nodes => nodes
  | h + 1, nodes => level h (below topology parentToExclude nodes)

/-- What the search leaves in its queue: the levels above the first leaf `front` and the nodes `before`
    it have children, and what is left is the rest of the level of the leaf and the nodes below
    `before`. -/
def LeftInQueue (nodes : List String) (front : String) (rest : List String) : Prop :=
  ∃ h before after, level topology parentToExclude h nodes = before ++ front :: after ∧
    rest = after ++ below topology parentToExclude before ∧ children? topology front = some [] ∧
    (∀ node ∈ before, IsInner topology node) ∧
    ∀ k < h, ∀ node ∈ level topology parentToExclude k nodes, IsInner topology node

end

variable {topology emulators : Object} {parentToExclude : String} {nodes : List String}

theorem climb_ok {n : ℕ} {node prev excl v : String} (hexcl : ancestor? topology n node = some excl)
    (hv : parent? topology excl = some v) {fuel : ℕ} (hfuel : n + 1 ≤ fuel) :
    climb topology fuel (n + 1 : ℕ) node prev = .ok (v, excl) := by
  induction n generalizing node prev fuel with
  | zero =>
    obtain ⟨fuel, rfl⟩ := Nat.exists_eq_succ_of_ne_zero (by omega : fuel ≠ 0)
    obtain rfl : node = excl := Option.some.inj hexcl
    obtain ⟨o, ho, hup⟩ := Option.bind_eq_some_iff.1 hv
    unfold climb
    dsimp only [getObject, getString]
    rw [ho, asserted_some_bind, hup]
    unfold climb
    rfl
  | succ n ih =>
    obtain ⟨fuel, rfl⟩ := Nat.exists_eq_succ_of_ne_zero (by omega : fuel ≠ 0)
    obtain ⟨up, hparent, hexcl⟩ := Option.bind_eq_some_iff.1 hexcl
    obtain ⟨o, ho, hup⟩ := Option.bind_eq_some_iff.1 hparent
    have hrest := @ih up node hexcl fuel (by omega)
    unfold climb
    dsimp only [getObject, getString]
    rw [ho, asserted_some_bind, hup]
    have hsub : (((n + 1 : ℕ) + 1 : ℕ) : ℤ) - 1 = ((n + 1 : ℕ) : ℤ) := by omega
    rw [hsub]
    exact hrest

/-- **The way up** ends exactly at the ancestors. A negative height is never counted down to zero. -/
theorem climb_eq_ok_iff {height2 : ℤ} (hne : height2 ≠ 0) {node prev excl v : String} :
    (∃ fuel, climb topology fuel height2 node prev = .ok (v, excl)) ↔
      ∃ n : ℕ, height2 = (n + 1 : ℕ) ∧ ancestor? topology n node = some excl ∧
        parent? topology excl = some v := by
  constructor
  · rintro ⟨fuel, hclimb⟩
    induction fuel generalizing height2 node prev with
    | zero =>
      unfold climb at hclimb
      rw [if_neg hne] at hclimb
      simp at hclimb
    | succ fuel ih =>
      unfold climb at hclimb
      rw [if_neg hne] at hclimb
      obtain ⟨o, ho, hclimb⟩ := asserted_bind_eq_ok.1 hclimb
      obtain ⟨up, hup, hclimb⟩ := asserted_bind_eq_ok.1 hclimb
      have hparent : parent? topology node = some up := by
        rw [parent?, ho]
        exact hup
      by_cases hone : height2 - 1 = 0
      · unfold climb at hclimb
        rw [if_pos hone] at hclimb
        obtain ⟨rfl, rfl⟩ := Prod.mk.inj (Except.ok.inj hclimb)
        exact ⟨0, by omega, rfl, hparent⟩
      · obtain ⟨n, hn, hexcl, hv⟩ := ih hone hclimb
        refine ⟨n + 1, by omega, ?_, hv⟩
        rw [ancestor?, hparent]
        exact hexcl
  · rintro ⟨n, rfl, hexcl, hv⟩
    refine ⟨n + 1, ?_⟩
    exact climb_ok hexcl hv le_rfl

theorem descend_cons {node : String} {cs rest : List String} (hcs : children? topology node = some cs)
    (hne : cs ≠ []) (fuel : ℕ) :
    descend topology parentToExclude (fuel + 1) (node :: rest) =
      descend topology parentToExclude fuel (rest ++ cs.filter fun s => s != parentToExclude) := by
  obtain ⟨children, hchildren, rfl⟩ := Option.map_eq_some_iff.1 hcs
  obtain ⟨o, ho, harray⟩ := Option.bind_eq_some_iff.1 hchildren
  rw [descend]
  dsimp only [getObject, getArray]
  rw [ho, asserted_some_bind, harray, asserted_some_bind, if_neg hne]

theorem descend_leaf {node : String} {rest : List String} (hcs : children? topology node = some [])
    (fuel : ℕ) :
    descend topology parentToExclude (fuel + 1) (node :: rest) = .ok (node :: rest) := by
  obtain ⟨children, hchildren, hnil⟩ := Option.map_eq_some_iff.1 hcs
  obtain ⟨o, ho, harray⟩ := Option.bind_eq_some_iff.1 hchildren
  rw [descend]
  dsimp only [getObject, getArray]
  rw [ho, asserted_some_bind, harray, asserted_some_bind, if_pos hnil]
  rfl

/-- The search goes through nodes with children. -/
theorem descend_inner (hnodes : ∀ node ∈ nodes, IsInner topology node) (fuel : ℕ)
    (rest : List String) :
    descend topology parentToExclude (fuel + nodes.length) (nodes ++ rest) =
      descend topology parentToExclude fuel (rest ++ below topology parentToExclude nodes) := by
  induction nodes generalizing rest with
  | nil => simp [below]
  | cons node nodes ih =>
    obtain ⟨cs, hcs, hne⟩ := hnodes node mem_cons_self
    have hrest := ih (fun node' hnode' => hnodes node' (mem_cons_of_mem node hnode'))
    rw [length_cons, ← add_assoc, cons_append, descend_cons hcs hne, append_assoc, hrest]
    simp [below, hcs]

/-- The search stops at the first leaf. -/
theorem LeftInQueue.descend {front : String} {rest : List String}
    (h : LeftInQueue topology parentToExclude nodes front rest) :
    ∃ bound, ∀ fuel, bound ≤ fuel →
      descend topology parentToExclude fuel nodes = .ok (front :: rest) := by
  obtain ⟨h, before, after, hlevel, rfl, hleaf, hbefore, habove⟩ := h
  induction h generalizing nodes with
  | zero =>
    refine ⟨before.length + 1, fun fuel hfuel => ?_⟩
    obtain ⟨fuel, rfl⟩ := Nat.exists_eq_add_of_le' hfuel
    obtain rfl : nodes = before ++ front :: after := hlevel
    rw [show fuel + (before.length + 1) = fuel + 1 + before.length by omega,
      descend_inner hbefore, cons_append, descend_leaf hleaf]
  | succ h ih =>
    have hnodes : ∀ node ∈ nodes, IsInner topology node := habove 0 (Nat.succ_pos h)
    obtain ⟨bound, hbound⟩ := @ih (below topology parentToExclude nodes) hlevel
      fun k hk => habove (k + 1) (Nat.succ_lt_succ hk)
    refine ⟨bound + nodes.length, fun fuel hfuel => ?_⟩
    obtain ⟨fuel, rfl⟩ := Nat.exists_eq_add_of_le' (by omega : nodes.length ≤ fuel)
    have hstep := @descend_inner topology parentToExclude nodes hnodes fuel []
    rw [append_nil, nil_append] at hstep
    rw [hstep, hbound fuel (by omega)]

theorem LeftInQueue.of_below {front : String} {rest : List String}
    (hnodes : ∀ node ∈ nodes, IsInner topology node)
    (h : LeftInQueue topology parentToExclude (below topology parentToExclude nodes) front rest) :
    LeftInQueue topology parentToExclude nodes front rest := by
  obtain ⟨h, before, after, hlevel, hrest, hleaf, hbefore, habove⟩ := h
  refine ⟨h + 1, before, after, hlevel, hrest, hleaf, hbefore, fun k hk => ?_⟩
  cases k with
  | zero => exact hnodes
  | succ k => exact habove k (Nat.lt_of_succ_lt_succ hk)

/-- In the middle of a level, the queue holds the rest of the level and the nodes below its
    beginning. -/
theorem leftInQueue_of_descend {fuel : ℕ} {done todo rest : List String} {front : String}
    (hdone : ∀ node ∈ done, IsInner topology node)
    (h : descend topology parentToExclude fuel (todo ++ below topology parentToExclude done) =
      .ok (front :: rest)) :
    LeftInQueue topology parentToExclude (done ++ todo) front rest := by
  induction fuel generalizing done todo with
  | zero =>
    cases hqueue : todo ++ below topology parentToExclude done with
    | nil | cons node queue => simp [hqueue, descend, pure, Except.pure] at h
  | succ fuel ih =>
    -- one node of the level
    have hnode : ∀ {done todo : List String} {node : String},
        (∀ node ∈ done, IsInner topology node) →
        descend topology parentToExclude (fuel + 1)
          (node :: todo ++ below topology parentToExclude done) = .ok (front :: rest) →
        LeftInQueue topology parentToExclude (done ++ node :: todo) front rest := by
      intro done todo node hdone h
      rw [cons_append, descend] at h
      obtain ⟨o, ho, h⟩ := asserted_bind_eq_ok.1 h
      obtain ⟨children, hchildren, h⟩ := asserted_bind_eq_ok.1 h
      have hcs : children? topology node = some (leadingStrings children) := by
        rw [children?, ho, Option.bind_some, hchildren]
        rfl
      by_cases hleaf : leadingStrings children = []
      · rw [if_pos hleaf] at h
        obtain ⟨rfl, rfl⟩ := cons.inj (Except.ok.inj h)
        exact ⟨0, done, todo, rfl, rfl, hleaf ▸ hcs, hdone, by simp⟩
      · rw [if_neg hleaf, append_assoc] at h
        have hdone' : ∀ node' ∈ done ++ [node], IsInner topology node' := by
          intro node' hnode'
          rcases mem_append.1 hnode' with hold | hnew
          · exact hdone node' hold
          · obtain rfl := mem_singleton.1 hnew
            exact ⟨_, hcs, hleaf⟩
        have hleft := @ih (done ++ [node]) todo hdone' (by simpa [below, hcs] using h)
        rwa [append_assoc, singleton_append] at hleft
    cases todo with
    | cons node todo => exact hnode hdone h
    | nil =>
      -- the level is done, and the next one is in the queue
      rw [append_nil]
      rw [nil_append] at h
      refine LeftInQueue.of_below hdone ?_
      cases hqueue : below topology parentToExclude done with
      | nil => simp [hqueue, descend, pure, Except.pure] at h
      | cons node todo =>
        rw [hqueue] at h
        exact @hnode [] todo node (by simp) (by simpa [below] using h)

/-- **The search** returns a queue that is not empty exactly with the nodes that are left. -/
theorem descend_eq_ok_iff {v front : String} {rest : List String} :
    (∃ fuel, descend topology parentToExclude fuel [v] = .ok (front :: rest)) ↔
      LeftInQueue topology parentToExclude [v] front rest := by
  constructor
  · rintro ⟨fuel, h⟩
    exact @leftInQueue_of_descend topology parentToExclude fuel [] [v] rest front (by simp)
      (by simpa [below] using h)
  · intro h
    obtain ⟨bound, hbound⟩ := h.descend
    exact ⟨bound, hbound bound le_rfl⟩

/-! ## The reply -/

/-- Every node has a parent, and emulators unless it is the node of the request behind a node with the
    same parent `pare`. -/
def CanCollect (topology emulators : Object) (slid : String) : (pare : String) → List String → Prop
  | _, [] => True
  | pare, node :: rest => ∃ up, parent? topology node = some up ∧
      ((emulators.object? node).isSome ∨ node = slid ∧ up = pare) ∧
      CanCollect topology emulators slid up rest

/-- The nodes in groups of neighbours, each with the parent of the group. The node of the request is
    left out, unless it is the first of a later group. -/
def groupsFrom (topology : Object) (slid : String) : (pare : String) → (group : List String) →
    List String → List (String × List String)
  | pare, group, [] => [(pare, group)]
  | pare, group, node :: rest =>
    if parent? topology node = some pare then
      groupsFrom topology slid pare (if node = slid then group else group ++ [node]) rest
    else
      (pare, group) :: groupsFrom topology slid ((parent? topology node).getD "") [node] rest

/-- The emulators of the nodes of a group. -/
def emulatorsOf (emulators : Object) (group : List String) : Object :=
  group.foldl (fun o node => o.set node (.object ((emulators.object? node).getD []))) []

/-- The emulators of some groups by their parents, added to what is there. -/
def withGroups (emulators : Object) (groups : List (String × List String)) (finalJson : Object) :
    Object :=
  groups.foldl (fun o g => o.set g.1 (.object (emulatorsOf emulators g.2))) finalJson

/-- The groups that are replied: the last one is lost, unless there is no other. -/
def repliedGroups (diffParents : Bool) (groups : List (String × List String)) :
    List (String × List String) :=
  if diffParents = false ∧ groups.length = 1 then groups else groups.dropLast

theorem groupsFrom_ne_nil (slid pare : String) (group queue : List String) :
    groupsFrom topology slid pare group queue ≠ [] := by
  induction queue generalizing pare group with
  | nil => exact cons_ne_nil _ _
  | cons node rest ih =>
    rw [groupsFrom]
    by_cases hsame : parent? topology node = some pare
    · rw [if_pos hsame]
      exact ih pare _
    · rw [if_neg hsame]
      exact cons_ne_nil _ _

theorem emulatorsOf_concat (group : List String) (node : String) :
    emulatorsOf emulators (group ++ [node]) =
      (emulatorsOf emulators group).set node (.object ((emulators.object? node).getD [])) := by
  simp [emulatorsOf]

/-- A group that another one follows is replied. -/
theorem withGroups_repliedGroups_cons {groups : List (String × List String)} (hne : groups ≠ [])
    (diffParents : Bool) (g : String × List String) (finalJson : Object) :
    withGroups emulators (repliedGroups diffParents (g :: groups)) finalJson =
      withGroups emulators (repliedGroups true groups)
        (finalJson.set g.1 (.object (emulatorsOf emulators g.2))) := by
  have hlength : ¬ (g :: groups).length = 1 := by simpa using hne
  simp only [repliedGroups, hlength, and_false, if_false, Bool.true_eq_false, false_and]
  rw [dropLast_cons_of_ne_nil hne]
  rfl

/-- **The collection** from the middle of a group on. -/
theorem collect_eq_ok_iff {slid pare : String} {queue group : List String} {diffParents : Bool}
    {finalJson o : Object} :
    collect topology emulators slid queue pare diffParents (emulatorsOf emulators group) finalJson =
        .ok o ↔
      CanCollect topology emulators slid pare queue ∧
        withGroups emulators
          (repliedGroups diffParents (groupsFrom topology slid pare group queue)) finalJson = o := by
  induction queue generalizing pare group diffParents finalJson with
  | nil => cases diffParents <;> simp [collect, CanCollect, groupsFrom, repliedGroups, withGroups, pure,
      Except.pure]
  | cons node rest ih =>
    rw [collect, parentOf_eq, asserted_bind_eq_ok, CanCollect, groupsFrom]
    cases hup : parent? topology node with
    | none => simp
    | some up =>
      simp only [Option.some.injEq, exists_eq_left', Option.getD_some]
      by_cases hsame : pare = up
      · subst hsame
        rw [if_pos rfl, if_pos rfl]
        by_cases hslid : node = slid
        · rw [if_pos hslid, if_pos hslid, ih]
          simp [hslid]
        · rw [if_neg hslid, if_neg hslid]
          cases he : emulators.object? node with
          | none => simp [getObject, he, hslid, asserted, bind, Except.bind]
          | some e =>
            have hsub := @emulatorsOf_concat emulators group node
            rw [he, Option.getD_some] at hsub
            rw [getObject, he, asserted_some_bind, ← hsub, ih]
            simp
      · rw [if_neg hsame, if_neg (Ne.symm hsame)]
        cases he : emulators.object? node with
        | none => simp [getObject, he, Ne.symm hsame, asserted, bind, Except.bind]
        | some e =>
          have hsub := @emulatorsOf_concat emulators [] node
          rw [he, Option.getD_some] at hsub
          rw [getObject, he, asserted_some_bind]
          refine Iff.trans (b := collect topology emulators slid rest up true
            (emulatorsOf emulators [node])
            (finalJson.set pare (.object (emulatorsOf emulators group))) = .ok o) ?_ ?_
          · rw [← nil_append [node], hsub]
            rfl
          · rw [ih, withGroups_repliedGroups_cons (groupsFrom_ne_nil slid up [node] rest)]
            simp

/-! ## When a request is answered -/

/-- The fields of an update of a document, apart from the id. -/
def UpdateFields (request : Object) : Mode → Prop
  | .quorum_size => (request.string? "size").isSome ∧ (request.string? "cycle").isSome ∧
      (request.string? "quorum_cert").isSome
  | .public_keys => ∃ keys, request.object? "keys" = some keys ∧
      (keys.string? "certificate_msp").isSome
  | .byzantine_groups | .super_leafs => (request.string? "IP").isSome
  | .emulators => (request.array? "ip").isSome ∧ (request.string? "cert").isSome

/-- An update: the fields are there, the document has a revision and objects under the keys that are
    copied, and there is room for the reply. -/
def UpdateAnswerable (couch : CouchDB) (mode : Mode) (request : Object) (proof : String)
    (maxReplySize : ℕ) : Prop :=
  UpdateFields request mode ∧ ((couch.doc mode.name).string? "_rev").isSome ∧
    (∃ id, request.string? mode.idField = some id ∧
      CanCopy (couch.doc mode.name) id (couch.doc mode.name)) ∧
    (replyMsgJson proof).length < maxReplySize

/-- A read: the document has an object with the id, and there is room for it. -/
def ReadAnswerable (couch : CouchDB) (mode : Mode) (request : Object) (maxReplySize : ℕ) : Prop :=
  ∃ id o, request.string? mode.idField = some id ∧ (couch.doc mode.name).object? id = some o ∧
    (Object.json o).length < maxReplySize

/-- The topology above and below a node, for a height that is not zero: the way up ends at `v`, the
    search below it leaves the nodes `front :: rest`, their emulators can be collected, and there is
    room for them. -/
def WalkAnswerable (topology emulators : Object) (slid : String) (height2 : ℤ) (maxReplySize : ℕ) :
    Prop :=
  ∃ (n : ℕ) (excl v front : String) (rest : List String) (pare : String),
    height2 = (n + 1 : ℕ) ∧ ancestor? topology n slid = some excl ∧
    parent? topology excl = some v ∧ LeftInQueue topology excl [v] front rest ∧
    parent? topology front = some pare ∧ CanCollect topology emulators slid pare (front :: rest) ∧
    (Object.json (withGroups emulators
      (repliedGroups false (groupsFrom topology slid pare [] (front :: rest))) [])).length <
        maxReplySize

/-- A read of emulators: the fields are there, and the height is too large, zero, or such that the
    topology can be walked. -/
def EmulatorsAnswerable (couch : CouchDB) (request : Object) (maxReplySize : ℕ) : Prop :=
  ∃ slid height maxHeight, request.string? "SLID" = some slid ∧
    request.string? "height" = some height ∧
    (couch.doc "configuration").string? "max_height" = some maxHeight ∧
    if maxHeight < height then heightError.toList.length < maxReplySize
    else if atoi height = 0 then
      ∃ e, (couch.doc "emulators").object? slid = some e ∧ (Object.json e).length < maxReplySize
    else
      WalkAnswerable (couch.doc "configuration") (couch.doc "emulators") slid (atoi height)
        maxReplySize

/-- The requests that are answered. An unknown mode gets no reply. -/
def Answerable (lib : Libraries) (couch : CouchDB) (readOnly : Bool) (request outReply : List Char)
    (outActualReplySize maxReplySize : ℕ) : Prop :=
  ∃ name, (lib.parse request).string? "Mode" = some name ∧
    match Mode.ofName name, readOnly with
    | none, _ => outActualReplySize = 0
    | some .emulators, true => EmulatorsAnswerable couch (lib.parse request) maxReplySize
    | some mode, true => ReadAnswerable couch mode (lib.parse request) maxReplySize
    | some mode, false => UpdateAnswerable couch mode (lib.parse request)
        (String.ofList (outReply.take outActualReplySize)) maxReplySize

/-- The fields of an update are exactly those that are taken from the request. -/
theorem updateFields_iff {mode : Mode} {request : Object} (proof : String) :
    UpdateFields request mode ↔
      mode.certificate request = .ok () ∧ ∃ sub, mode.subJson request proof = .ok sub := by
  cases mode with
  | quorum_size =>
    simp only [UpdateFields, certificate, subJson, getString,
      asserted_bind_eq_ok, Option.isSome_iff_exists]
    constructor
    · rintro ⟨⟨size, hsize⟩, ⟨cycle, hcycle⟩, cert, hcert⟩
      exact ⟨⟨cert, hcert, rfl⟩, _, size, hsize, cycle, hcycle, cert, hcert, rfl⟩
    · rintro ⟨-, _, size, hsize, cycle, hcycle, cert, hcert, -⟩
      exact ⟨⟨size, hsize⟩, ⟨cycle, hcycle⟩, cert, hcert⟩
  | public_keys =>
    simp only [UpdateFields, certificate, subJson, getString, getObject,
      asserted_bind_eq_ok, asserted_eq_ok, Option.isSome_iff_exists]
    constructor
    · rintro ⟨keys, hkeys, cert, hcert⟩
      exact ⟨⟨keys, hkeys, cert, hcert, rfl⟩, keys, hkeys⟩
    · rintro ⟨⟨keys, hkeys, cert, hcert, -⟩, -⟩
      exact ⟨keys, hkeys, cert, hcert⟩
  | byzantine_groups | super_leafs =>
    simp only [UpdateFields, subJson, getString, asserted_bind_eq_ok, Option.isSome_iff_exists]
    constructor
    · rintro ⟨ip, hip⟩
      exact ⟨rfl, _, ip, hip, rfl⟩
    · rintro ⟨-, _, ip, hip, -⟩
      exact ⟨ip, hip⟩
  | emulators =>
    simp only [UpdateFields, certificate, subJson, getString, getArray,
      asserted_bind_eq_ok, Option.isSome_iff_exists]
    constructor
    · rintro ⟨⟨ip, hip⟩, cert, hcert⟩
      exact ⟨⟨cert, hcert, rfl⟩, _, ip, hip, cert, hcert, rfl⟩
    · rintro ⟨-, _, ip, hip, cert, hcert, -⟩
      exact ⟨⟨ip, hip⟩, cert, hcert⟩

theorem exists_update_iff {lib : Libraries} {couch : CouchDB} {mode : Mode} {request : Object}
    {proof : String} :
    (∃ couch', update lib couch mode request proof = .ok couch') ↔
      UpdateFields request mode ∧ ((couch.doc mode.name).string? "_rev").isSome ∧
      ∃ id, request.string? mode.idField = some id ∧
        CanCopy (couch.doc mode.name) id (couch.doc mode.name) := by
  simp only [update_eq_ok_iff, updateFields_iff proof]
  constructor
  · rintro ⟨couch', hcert, rev, hrev, id, hid, body, hbody, sub, hsub, -⟩
    refine ⟨⟨hcert, sub, hsub⟩, ?_, id, hid, canCopy_of_copyEntries hbody⟩
    rw [hrev]
    rfl
  · rintro ⟨⟨hcert, sub, hsub⟩, hrev, id, hid, hcopy⟩
    obtain ⟨rev, hrev⟩ := Option.isSome_iff_exists.1 hrev
    obtain ⟨body, hbody, -⟩ := copyEntries_spec _ id hcopy (reservedFields mode.name rev)
    exact ⟨_, hcert, rev, hrev, id, hid, body, hbody, sub, hsub, rfl⟩

/-! ## One kind of request at a time -/

section

variable {lib : Libraries} {couch : CouchDB} {request outReply : List Char}
  {outActualReplySize maxReplySize : ℕ}

theorem safe_unknown {name : String} {readOnly : Bool}
    (hname : (lib.parse request).string? "Mode" = some name) (hmode : Mode.ofName name = none) :
    Safe lib couch readOnly request outReply outActualReplySize maxReplySize ↔
      outActualReplySize = 0 := by
  have hok : ∀ fuel, execute lib fuel couch readOnly request outReply outActualReplySize =
      .ok ⟨couch, none, outActualReplySize⟩ := by
    intro fuel
    unfold execute
    dsimp only [getString]
    rw [hname, asserted_some_bind, hmode]
    cases readOnly with
    | false => rfl
    | true => rfl
  constructor
  · rintro ⟨fuel, out, hout, hsafe⟩
    obtain rfl := Except.ok.inj ((hok fuel).symm.trans hout)
    exact hsafe
  · intro hzero
    exact ⟨0, _, hok 0, hzero⟩

theorem safe_iff_reply {α : Type} {readOnly : Bool} {x : ℕ → Except Fault α} {db : α → CouchDB}
    {text : α → List Char}
    (hok : ∀ fuel, execute lib fuel couch readOnly request outReply outActualReplySize =
      x fuel >>= fun a => pure ⟨db a, some (text a), (text a).length⟩) :
    Safe lib couch readOnly request outReply outActualReplySize maxReplySize ↔
      ∃ fuel a, x fuel = .ok a ∧ (text a).length < maxReplySize := by
  unfold Safe
  simp only [hok]
  constructor
  · rintro ⟨fuel, out, hout, hsafe⟩
    obtain ⟨a, ha, hout⟩ := bind_eq_ok hout
    obtain rfl := Except.ok.inj hout
    exact ⟨fuel, a, ha, hsafe.1⟩
  · rintro ⟨fuel, a, ha, hlength⟩
    refine ⟨fuel, ⟨db a, some (text a), (text a).length⟩, ?_, hlength, rfl⟩
    rw [ha]
    rfl

theorem safe_read {mode : Mode} (hname : (lib.parse request).string? "Mode" = some mode.name)
    (hmode : mode ≠ .emulators) :
    Safe lib couch true request outReply outActualReplySize maxReplySize ↔
      ReadAnswerable couch mode (lib.parse request) maxReplySize := by
  have hok : ∀ fuel, execute lib fuel couch true request outReply outActualReplySize =
      readDocument couch mode (lib.parse request) >>= fun text =>
        pure ⟨couch, some text, text.length⟩ := by
    intro fuel
    unfold execute
    dsimp only [getString]
    rw [hname, asserted_some_bind, ofName_eq_some_iff.2 rfl]
    cases mode with
    | emulators => exact absurd rfl hmode
    | public_keys | quorum_size | byzantine_groups | super_leafs => rfl
  rw [safe_iff_reply hok]
  simp only [readDocument, getString, getObject, asserted_bind_eq_ok]
  constructor
  · rintro ⟨-, text, ⟨id, hid, o, ho, htext⟩, hlength⟩
    obtain rfl := Except.ok.inj htext
    exact ⟨id, o, hid, ho, hlength⟩
  · rintro ⟨id, o, hid, ho, hlength⟩
    exact ⟨0, _, ⟨id, hid, o, ho, rfl⟩, hlength⟩

theorem safe_update {mode : Mode} (hname : (lib.parse request).string? "Mode" = some mode.name) :
    Safe lib couch false request outReply outActualReplySize maxReplySize ↔
      UpdateAnswerable couch mode (lib.parse request)
        (String.ofList (outReply.take outActualReplySize)) maxReplySize := by
  generalize hproof : String.ofList (outReply.take outActualReplySize) = proof
  have hok : ∀ fuel, execute lib fuel couch false request outReply outActualReplySize =
      update lib couch mode (lib.parse request) proof >>= fun couch' =>
        pure ⟨couch', some (replyMsgJson proof), (replyMsgJson proof).length⟩ := by
    intro fuel
    unfold execute
    dsimp only [getString]
    rw [hname, asserted_some_bind, if_neg (by simp), ofName_eq_some_iff.2 rfl, hproof]
  have hiff := @exists_update_iff lib couch mode (lib.parse request) proof
  rw [safe_iff_reply hok]
  constructor
  · rintro ⟨-, couch', hupdate, hlength⟩
    obtain ⟨hfields, hrev, hid⟩ := hiff.1 ⟨couch', hupdate⟩
    exact ⟨hfields, hrev, hid, hlength⟩
  · rintro ⟨hfields, hrev, hid, hlength⟩
    obtain ⟨couch', hupdate⟩ := hiff.2 ⟨hfields, hrev, hid⟩
    exact ⟨0, couch', hupdate, hlength⟩

theorem safe_emulators_iff (hname : (lib.parse request).string? "Mode" = some "emulators") :
    Safe lib couch true request outReply outActualReplySize maxReplySize ↔
      ∃ fuel text, readEmulators fuel couch (lib.parse request) = .ok text ∧
        text.length < maxReplySize := by
  have hmode : ofName "emulators" = some .emulators := by decide
  have hok : ∀ fuel, execute lib fuel couch true request outReply outActualReplySize =
      readEmulators fuel couch (lib.parse request) >>= fun text =>
        pure ⟨couch, some text, text.length⟩ := by
    intro fuel
    unfold execute
    dsimp only [getString]
    rw [hname, asserted_some_bind, if_pos rfl, hmode]
  exact safe_iff_reply hok

/-- **The walk** is answered exactly by the way up, the nodes left in the queue, and their emulators. -/
theorem walk_iff {slid : String} {height2 : ℤ} (hne : height2 ≠ 0) :
    (∃ fuel text, walk fuel topology emulators slid height2 = .ok text ∧
        text.length < maxReplySize) ↔
      WalkAnswerable topology emulators slid height2 maxReplySize := by
  constructor
  · rintro ⟨fuel, text, hwalk, hlength⟩
    obtain ⟨⟨v, excl⟩, hclimb, hwalk⟩ := bind_eq_ok hwalk
    obtain ⟨n, hn, hexcl, hv⟩ := (climb_eq_ok_iff hne).1 ⟨fuel, hclimb⟩
    obtain ⟨queue, hdescend, hwalk⟩ := bind_eq_ok hwalk
    cases queue with
    | nil => simp at hwalk
    | cons front rest =>
      dsimp only at hwalk
      rw [parentOf_eq] at hwalk
      obtain ⟨pare, hpare, hwalk⟩ := asserted_bind_eq_ok.1 hwalk
      obtain ⟨o, hcollect, htext⟩ := bind_eq_ok hwalk
      obtain ⟨hcan, rfl⟩ := (@collect_eq_ok_iff _ _ _ _ _ [] _ _ _).1 hcollect
      obtain rfl := Except.ok.inj htext
      exact ⟨n, excl, v, front, rest, pare, hn, hexcl, hv, descend_eq_ok_iff.1 ⟨fuel, hdescend⟩,
        hpare, hcan, hlength⟩
  · rintro ⟨n, excl, v, front, rest, pare, rfl, hexcl, hv, hleft, hpare, hcan, hlength⟩
    obtain ⟨bound, hdescend⟩ := hleft.descend
    have hcollect := (@collect_eq_ok_iff _ _ _ _ _ [] false [] _).2 ⟨hcan, rfl⟩
    refine ⟨max (n + 1) bound, _, ?_, hlength⟩
    unfold walk
    rw [climb_ok hexcl hv (le_max_left _ _), ok_bind]
    dsimp only
    rw [hdescend _ (le_max_right _ _), ok_bind]
    dsimp only
    rw [parentOf_eq, hpare, asserted_some_bind]
    exact congrArg (· >>= fun finalJson => pure (Object.json finalJson)) hcollect

/-- A read of emulators: the error text, the emulators of the node itself, or the walk. -/
theorem readEmulators_iff {req : Object} :
    (∃ fuel text, readEmulators fuel couch req = .ok text ∧ text.length < maxReplySize) ↔
      EmulatorsAnswerable couch req maxReplySize := by
  unfold readEmulators EmulatorsAnswerable
  simp only [getString, asserted_bind_eq_ok]
  constructor
  · rintro ⟨fuel, text, ⟨slid, hslid, height, hheight, maxHeight, hmax, htext⟩, hlength⟩
    refine ⟨slid, height, maxHeight, hslid, hheight, hmax, ?_⟩
    by_cases hlt : maxHeight < height
    · rw [if_pos hlt] at htext ⊢
      obtain rfl := Except.ok.inj htext
      exact hlength
    · by_cases hzero : atoi height = 0
      · rw [if_neg hlt, if_pos hzero] at htext ⊢
        obtain ⟨e, he, htext⟩ := asserted_bind_eq_ok.1 htext
        obtain rfl := Except.ok.inj htext
        exact ⟨e, he, hlength⟩
      · rw [if_neg hlt, if_neg hzero] at htext ⊢
        exact (walk_iff hzero).1 ⟨fuel, text, htext, hlength⟩
  · rintro ⟨slid, height, maxHeight, hslid, hheight, hmax, hcond⟩
    by_cases hlt : maxHeight < height
    · rw [if_pos hlt] at hcond
      exact ⟨0, _, ⟨slid, hslid, height, hheight, maxHeight, hmax, if_pos hlt⟩, hcond⟩
    · by_cases hzero : atoi height = 0
      · rw [if_neg hlt, if_pos hzero] at hcond
        obtain ⟨e, he, hlength⟩ := hcond
        refine ⟨0, json e, ⟨slid, hslid, height, hheight, maxHeight, hmax, ?_⟩, hlength⟩
        rw [if_neg hlt, if_pos hzero, getObject, he]
        rfl
      · rw [if_neg hlt, if_neg hzero] at hcond
        obtain ⟨fuel, text, hwalk, hlength⟩ := (walk_iff hzero).2 hcond
        refine ⟨fuel, text, ⟨slid, hslid, height, hheight, maxHeight, hmax, ?_⟩, hlength⟩
        rw [if_neg hlt, if_neg hzero]
        exact hwalk

/-- **Requests that are answered.** A request is answered safely exactly if it is answerable. -/
theorem safe_iff_answerable (lib : Libraries) (couch : CouchDB) (readOnly : Bool)
    (request outReply : List Char) (outActualReplySize maxReplySize : ℕ) :
    Safe lib couch readOnly request outReply outActualReplySize maxReplySize ↔
      Answerable lib couch readOnly request outReply outActualReplySize maxReplySize := by
  unfold Answerable
  cases hname : (lib.parse request).string? "Mode" with
  | none =>
    -- no request without a mode is answered
    refine iff_of_false ?_ ?_
    · rintro ⟨fuel, out, hout, -⟩
      unfold execute at hout
      dsimp only [getString] at hout
      rw [hname] at hout
      exact absurd hout (by simp [asserted, bind, Except.bind])
    · rintro ⟨name, hsome, -⟩
      simp at hsome
  | some name =>
    simp only [Option.some.injEq, exists_eq_left']
    cases hmode : ofName name with
    | none => exact safe_unknown hname hmode
    | some mode =>
      obtain rfl := ofName_eq_some_iff.1 hmode
      cases readOnly with
      | false =>
        rw [safe_update hname]
        cases mode <;> rfl
      | true =>
        by_cases hemulators : mode = .emulators
        · subst hemulators
          exact (safe_emulators_iff hname).trans readEmulators_iff
        · rw [safe_read hname hemulators]
          cases mode with
          | emulators => exact absurd rfl hemulators
          | public_keys | quorum_size | byzantine_groups | super_leafs => rfl

/-- A read of emulators. -/
def emulatorsRead (slid height : String) : Object :=
  [("Mode", .string "emulators"), ("SLID", .string slid), ("height", .string height)]

def sampleReads : Libraries :=
  .ofObjects [leaderRead "0", leaderRead "9", emulatorsRead "0" "2", emulatorsRead "9" "1"]

/-- A node of the sample topology. -/
def sampleNode (parent : String) (children : List Value) : Value :=
  .object [("children", .array children), ("parent", .string parent)]

/-- The node `v_n3` with the leaf `8` and two virtual nodes, which have the leaves `0`, `1` and `4`,
    `5`; and the node `v_n4` with the only leaf `9`. -/
def sampleTopology : Object :=
  [("0", sampleNode "v_n1" []), ("1", sampleNode "v_n1" []), ("4", sampleNode "v_n2" []),
    ("5", sampleNode "v_n2" []), ("8", sampleNode "v_n3" []), ("9", sampleNode "v_n4" []),
    ("max_height", .string "2"), ("v_n1", sampleNode "v_n3" [.string "0", .string "1"]),
    ("v_n2", sampleNode "v_n3" [.string "4", .string "5"]),
    ("v_n3", sampleNode "" [.string "v_n1", .string "v_n2", .string "8"]),
    ("v_n4", sampleNode "" [.string "9"])]

/-- All documents but the topology have a certificate for each of five leaves. -/
def sampleCouch : CouchDB :=
  ⟨fun name => if name = "configuration" then sampleTopology
    else ["0", "1", "4", "5", "8"].map fun id => (id, .object [("cert", .string "c")])⟩

/-- Below `v_n3` and without the branch of `0`, the search stops at the leaf `8`, with the leaves below
    `v_n2` behind it. They are a group of their own, the last one, and their emulators are lost. -/
theorem safe_iff_answerable_sample :
    Answerable sampleReads sampleCouch true (Object.json (emulatorsRead "0" "2")) [] 0 1000 ∧
      Safe sampleReads sampleCouch true (Object.json (emulatorsRead "0" "2")) [] 0 1000 := by
  have hparse : sampleReads.parse (Object.json (emulatorsRead "0" "2")) = emulatorsRead "0" "2" := rfl
  have hleft : LeftInQueue sampleTopology "v_n1" ["v_n3"] "8" ["4", "5"] := by
    refine ⟨1, ["v_n2"], [], by decide, by decide, by decide, ?_, ?_⟩
    · intro node hnode
      obtain rfl := mem_singleton.1 hnode
      exact ⟨["4", "5"], by decide, by decide⟩
    · intro k hk node hnode
      obtain rfl := Nat.lt_one_iff.1 hk
      obtain rfl := mem_singleton.1 hnode
      exact ⟨["v_n1", "v_n2", "8"], by decide, by decide⟩
  have hwalk : WalkAnswerable sampleTopology (sampleCouch.doc "emulators") "0" 2 1000 := by
    refine ⟨1, "v_n1", "v_n3", "8", ["4", "5"], "v_n3", rfl, by decide, by decide, hleft, by decide, ?_,
      by decide +kernel⟩
    exact ⟨"v_n3", by decide, .inl (by decide), "v_n2", by decide, .inl (by decide), "v_n2", by decide,
      .inl (by decide), trivial⟩
  have hanswerable :
      Answerable sampleReads sampleCouch true (Object.json (emulatorsRead "0" "2")) [] 0 1000 := by
    unfold Answerable
    rw [hparse]
    exact ⟨"emulators", rfl, "0", "2", "2", rfl, rfl, rfl, hwalk⟩
  exact ⟨hanswerable, (safe_iff_answerable _ _ _ _ _ _ _).2 hanswerable⟩

/-- Requests that are not answered: a text that is not JSON, read-only or not, a read of an id that is
    not there, a read whose reply has no room in the buffer, and the emulators next to a leaf that has
    no siblings. -/
theorem requests_not_safe :
    (∀ readOnly, ¬ Safe sampleReads sampleCouch readOnly "not JSON".toList [] 0 1000) ∧
      ¬ Safe sampleReads sampleCouch true (Object.json (leaderRead "9")) [] 0 1000 ∧
      ¬ Safe sampleReads sampleCouch true (Object.json (leaderRead "0")) [] 0 10 ∧
      ¬ Safe sampleReads sampleCouch true (Object.json (emulatorsRead "9" "1")) [] 0 1000 := by
  refine ⟨fun readOnly => ?_, ?_, ?_, ?_⟩
  · rintro ⟨fuel, out, hout, -⟩
    have hfails : execute sampleReads fuel sampleCouch readOnly "not JSON".toList [] 0 =
      .error .assertion := rfl
    rw [hfails] at hout
    simp at hout
  · rintro ⟨fuel, out, hout, -⟩
    have hfails : execute sampleReads fuel sampleCouch true (Object.json (leaderRead "9")) [] 0 =
      .error .assertion := rfl
    rw [hfails] at hout
    simp at hout
  · rintro ⟨fuel, out, hout, hsafe⟩
    obtain rfl := Except.ok.inj hout
    exact absurd hsafe.1 (by decide)
  · rintro ⟨fuel, out, hout, -⟩
    have hfails :
        execute sampleReads fuel sampleCouch true (Object.json (emulatorsRead "9" "1")) [] 0 ≠
          .ok out := by
      cases fuel with
      | zero => exact nofun
      | succ fuel =>
        cases fuel with
        | zero | succ fuel => exact nofun
    exact hfails hout

end

end ConcordBft.MembershipService
