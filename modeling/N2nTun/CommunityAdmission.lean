import N2nTun.CommunityText
import N2nTun.FederationName
import N2nTun.Relay

/-!
# The communities and rules a file leaves

What the text of the community file should come to: every name once, user lines that add users
and nothing else, and registrations that are let in because of the other lines. It comes to that
for the files whose community lines have different names and whose user lines are all in place.

## Main definitions

* `Sn.Enters` — a registration gets a community.
* `communityNames`, `usersPlaced` — the names that a file gives, and where its users stand.
* `CommunityFileLaw` — the law.

## Main results

* `Loading.Adds`, `Follows` — what lines add, and what the loop knows behind them.
* `communityFileLaw_iff` — **a file keeps the law exactly if its names are different and its
  user lines are in place.**
-/

namespace N2n

open Bytes Tokens Machines

/-! ### Names and registrations -/

/-- The name of a community. -/
def Community.name (c : Community) : List UInt8 := cstr c.community.toList

/-- What a community is found by. -/
def Community.ident (c : Community) : List UInt8 × CommunityName := (c.key, c.community)

/-- The names in the table of communities. -/
def Sn.names (sss : Sn) : List (List UInt8) := sss.communities.values.map Community.name

/-- What the communities of the table are found by. -/
def Sn.idents (sss : Sn) : List (List UInt8 × CommunityName) :=
  sss.communities.values.map Community.ident

/-- `HASH_FIND_COMMUNITY` with the name in a packet. -/
def Sn.findCommunity (sss : Sn) (name : CommunityName) : Option ℕ :=
  (sss.communities.find? (·.hasName (cstr name.toList))).map Prod.fst

/-- A REGISTER_SUPER with this name gets a community. -/
def Sn.Enters (sss : Sn) (name : CommunityName) : Prop :=
  ∀ d : Dispatch, d.cmn.community = name → d.comm = sss.findCommunity name →
    (sss.provideCommunity d).2.isSome = true

section Names

variable {sss sss' : Sn}

theorem Sn.names_eq (sss : Sn) : sss.names = sss.idents.map fun i => cstr i.2.toList := by
  unfold Sn.names Sn.idents
  rw [List.map_map]
  rfl

/-- A write to one community leaves the names alone. -/
theorem Sn.idents_modifyComm (sss : Sn) (p : ℕ) {f : Community → Community}
    (hf : ∀ c, (f c).ident = c.ident) : (sss.modifyComm p f).idents = sss.idents := by
  unfold Sn.idents Sn.modifyComm Table.values Table.modify
  simp only [List.map_map]
  refine List.map_congr_left fun e _ => ?_
  simp only [Function.comp_apply, Table.updateAt]
  split_ifs
  · exact hf e.2
  · rfl

/-- So does a write to all of them. -/
theorem Sn.idents_mapValues (sss : Sn) {f : Community → Community}
    (hf : ∀ c, (f c).ident = c.ident) :
    { sss with communities := sss.communities.mapValues f }.idents = sss.idents := by
  unfold Sn.idents Table.values Table.mapValues
  simp only [List.map_map]
  exact List.map_congr_left fun e _ => hf e.2

theorem Sn.idents_add (sss : Sn) (c : Community) :
    { sss with communities := sss.communities.add c }.idents = sss.idents ++ [c.ident] := by
  unfold Sn.idents Table.values Table.add
  simp

theorem Sn.idents_calculateSharedSecrets (sss : Sn) (secret : List UInt8 → List UInt8) :
    (sss.calculateSharedSecrets secret).idents = sss.idents := by
  refine sss.idents_mapValues fun c => ?_
  split_ifs <;> rfl

theorem Sn.idents_calculateDynamicKeys (sss : Sn) :
    sss.calculateDynamicKeys.idents = sss.idents := by
  refine sss.idents_mapValues fun c => ?_
  unfold Community.withDynamicKey
  split_ifs <;> rfl

/-- **A registration gets a community that is there, or one that it may bring up.** -/
theorem Sn.enters_iff (sss : Sn) (name : CommunityName) :
    sss.Enters name ↔
      (∃ i ∈ sss.idents, i.1 = cstr name.toList ∧
        i.2.toList.take (cstr name.toList).length = cstr name.toList) ∨
      (sss.lockCommunities && !sss.allowsCommunity name) = false := by
  have hfind : (sss.findCommunity name).isSome = true ↔
      ∃ i ∈ sss.idents, i.1 = cstr name.toList ∧
        i.2.toList.take (cstr name.toList).length = cstr name.toList := by
    unfold Sn.findCommunity Sn.idents
    rw [Option.isSome_map, Option.isSome_iff_ne_none, ne_eq, Table.find?_eq_none]
    have hmem : ∀ c, c ∈ sss.communities ↔ c ∈ sss.communities.values := fun _ => Iff.rfl
    simp [hmem, Community.hasName, Community.ident]
  rw [← hfind]
  constructor
  · intro h
    -- a message that was looked up under its name
    have hd := h ⟨sss.findCommunity name, .plain, 0, [], [], { Common.zero with community := name },
      ⟨0, 0⟩, none⟩ rfl rfl
    unfold Sn.provideCommunity at hd
    cases hget : sss.findCommunity name with
    | some p => exact .inl rfl
    | none =>
      rw [hget] at hd
      dsimp only at hd
      split_ifs at hd with hlock
      · cases hd
      · exact .inr (by simpa using hlock)
  · rintro h d rfl hcomm
    unfold Sn.provideCommunity
    cases hget : sss.findCommunity d.cmn.community with
    | some p =>
      rw [hcomm, hget]
      rfl
    | none =>
      rw [hget] at h
      have hlock := h.resolve_left (by simp)
      rw [hcomm, hget]
      dsimp only
      rw [hlock]
      rfl

/-- A string ends in the buffer. -/
theorem cstr_take {p : List UInt8} {n : ℕ} (h : p.getD n 0 = 0) :
    cstr (p.take (n + 1)) = cstr p := by
  induction n generalizing p with
  | zero =>
    cases p with
    | nil => rfl
    | cons b p =>
      obtain rfl : b = 0 := h
      rfl
  | succ n ih =>
    cases p with
    | nil => rfl
    | cons b p =>
      have hrest := ih (p := p) h
      unfold cstr at hrest ⊢
      rw [List.take_succ_cons, List.takeWhile_cons, List.takeWhile_cons, hrest]

/-- **A plain registration is looked up under its name.** -/
theorem World.dispatched_findCommunity {w : World} {rx : Rx} {d : Dispatch}
    (h : w.dispatched rx = some d) (hplain : d.headerEnc = .plain) :
    d.comm = w.sss.findCommunity d.cmn.community := by
  unfold World.dispatched at h
  split at h
  swap
  · cases h
  rename_i o hopen
  have hadm := Sn.toDispatch_eq_some h
  have hname := (decodeCommon_header (Sn.openHeader_length hopen) hadm.decoded).2.2
  rw [hadm.comm, hadm.cmn]
  show o.comm = w.sss.findCommunity o.common.out.community
  rw [show o.common.out.community = sliceVec o.udpBuf 4 20 from hname]
  rw [hadm.headerEnc] at hplain
  unfold Sn.openHeader at hopen
  dsimp only at hopen
  split_ifs at hopen with hshort hlooks
  · -- the last byte of the name is zero
    have hzero : (rx.udpBuf.drop 4).getD 19 0 = 0 := by
      unfold looksPlain at hlooks
      simp only [Bool.and_eq_true, beq_iff_eq] at hlooks
      simpa [List.getD_eq_getElem?_getD] using hlooks.1.1
    have hkey : ∀ udpBuf, udpBuf = rx.udpBuf →
        cstr (sliceVec udpBuf 4 20).toList = cstr (rx.udpBuf.drop 4) := by
      rintro udpBuf rfl
      show cstr (slice rx.udpBuf 4 20) = _
      rw [slice_eq_take_drop (by omega), cstr_take hzero]
    unfold Sn.findCommunity
    split at hopen
    · rename_i hfind
      cases hopen
      rw [hkey _ rfl, hfind]
      rfl
    · rename_i p c hfind
      split at hopen <;> cases hopen <;> rw [hkey _ rfl, hfind] <;> rfl
  · -- the header was encrypted
    split at hopen
    · rename_i htrial
      cases hopen
      obtain ⟨_, -, -, -, hacc⟩ := decryptTrial_accepted htrial
      rcases hacc with ⟨_, _, _, _, _, _, _, henc⟩ | ⟨_, _, _, _, _, _, _, henc⟩ <;>
        rw [henc] at hplain <;> cases hplain
    · rename_i hno
      exact absurd hopen (hno o)

/-- The names, the rules and the lock decide who gets in. -/
theorem Sn.enters_congr (hidents : sss'.idents = sss.idents) (hrules : sss'.rules = sss.rules)
    (hlock : sss'.lockCommunities = sss.lockCommunities) (name : CommunityName) :
    sss'.Enters name ↔ sss.Enters name := by
  have hallows : sss'.allowsCommunity name = sss.allowsCommunity name := by
    unfold Sn.allowsCommunity
    rw [hrules]
  rw [Sn.enters_iff, Sn.enters_iff, hidents, hlock, hallows]

end Names

/-! ### The names and the users of a file -/

/-- The name that a community line gives. -/
def TextLine.name? : TextLine → Option (List UInt8)
  | .community name _ => some (cstr (commInitName name).toList)
  | _ => none

/-- The names that the community lines give. -/
def communityNames (inetAddr : List UInt8 → UInt32) (lines : List (List UInt8)) :
    List (List UInt8) :=
  (lines.filter (!isUserLine ·)).filterMap fun line => (namedLine inetAddr line).name?

/-- Every user line has a name and a key, and the last other line before it is a community. -/
def usersPlaced (inetAddr : List UInt8 → UInt32) : Bool → List (List UInt8) → Bool
  | _, [] => true
  | comm, line :: lines =>
    if isUserLine line then (scanUser line).isSome && comm && usersPlaced inetAddr comm lines
    else usersPlaced inetAddr (namedLine inetAddr line).name?.isSome lines

/-! ### The law -/

/-- The state of the loop behind the lines `before` of a file. -/
def World.loadingOf (w : World) (env : FileEnv) (lines before : List (List UInt8)) : Loading :=
  (attachRules (env.rules (linePatterns (env.read lines))) (env.read before)).foldl Loading.line
    ⟨w.beforeLines.sss, none, 0⟩

/-- At most a user is added, to the community whose name comes last. -/
structure AddsUserAtMost (l l' : Loading) (nearest : Option (List UInt8)) : Prop where
  rules : l'.sss.rules = l.sss.rules
  names : l'.sss.names = l.sss.names
  user : l'.sss = l.sss ∨ ∃ p c publicKey, l.sss.communities.get? p = some c ∧
    c.isFederation = false ∧ nearest = some c.name ∧
      l'.sss = l.sss.modifyComm p (·.addUser publicKey)

/-- **The law**: every name is in the table once, a user line adds at most a user, and who gets
in is decided by the other lines. -/
structure CommunityFileLaw (w : World) (env : FileEnv) (lines : List (List UInt8)) : Prop where
  distinct : (w.loadCommunityLines env lines).1.sss.names.Nodup
  users : ∀ before line later, lines = before ++ line :: later → isUserLine line = true →
    AddsUserAtMost (w.loadingOf env lines before) (w.loadingOf env lines (before ++ [line]))
      (communityNames env.inetAddr before).getLast?
  others : ∀ name, (w.loadCommunityLines env lines).1.sss.Enters name ↔
    (w.loadCommunityLines env (lines.filter (!isUserLine ·))).1.sss.Enters name

/-! ### What lines add -/

/-- What a line adds to the names, if its user has a community. -/
def CommunityLine.idents : CommunityLine → List (List UInt8 × CommunityName)
  | .community name _ => [(loadedCommunity name).ident]
  | _ => []

/-- What it adds to the rules. -/
def CommunityLine.rules : CommunityLine → List Rule
  | .rule re => [re]
  | _ => []

/-- Whether it counts. -/
def CommunityLine.counts : CommunityLine → Bool
  | .user _ _ => false
  | _ => true

/-- The lines `xs` have been added, and nothing else. -/
structure Loading.Adds (l l' : Loading) (xs : List CommunityLine) : Prop where
  idents : l'.sss.idents = l.sss.idents ++ xs.flatMap CommunityLine.idents
  rules : l'.sss.rules = l.sss.rules ++ xs.flatMap CommunityLine.rules
  num : l'.num = l.num + xs.countP CommunityLine.counts
  lock : l'.sss.lockCommunities = l.sss.lockCommunities

/-- What the loop knows behind the lines `before`: the text and the pointer agree on whether
there is a community for users, and it is the one whose name comes last. -/
structure Follows (inetAddr : List UInt8 → UInt32) (before : List (List UInt8)) (s : LineState)
    (l : Loading) : Prop where
  hasComm : s.hasComm = l.lastAddedComm.isSome
  nearest : ∀ p, l.lastAddedComm = some p → ∃ c, l.sss.communities.get? p = some c ∧
    c.isFederation = false ∧ (communityNames inetAddr before).getLast? = some c.name

/-- The line with its rule. -/
def TextLine.attached (rule : Rule) : TextLine → CommunityLine
  | .community name net => .community name net
  | .rule _ => .rule rule
  | .user publicKey => .user publicKey noRule

section Lines

variable {inetAddr : List UInt8 → UInt32} {before : List (List UInt8)} {line : List UInt8}
  {s : LineState} {l l' l'' : Loading} {xs ys : List CommunityLine} {t : TextLine}

theorem Loading.Adds.refl (l : Loading) : l.Adds l [] :=
  ⟨by simp, by simp, rfl, rfl⟩

theorem Loading.Adds.trans (h : l.Adds l' xs) (h' : l'.Adds l'' ys) : l.Adds l'' (xs ++ ys) where
  idents := by rw [h'.idents, h.idents, List.flatMap_append, List.append_assoc]
  rules := by rw [h'.rules, h.rules, List.flatMap_append, List.append_assoc]
  num := by rw [h'.num, h.num, List.countP_append, Nat.add_assoc]
  lock := h'.lock.trans h.lock

/-- A community is added with some sub-network. -/
theorem Loading.addCommunity_sss (l : Loading) (name : List UInt8) (net : Option IpSubnet) :
    ∃ net', (l.addCommunity name net).sss =
      { l.sss with communities := l.sss.communities.add (loadedCommunity name) }.modifyComm
        l.sss.communities.next fun c => { c with autoIpNet := net' } := by
  unfold Loading.addCommunity
  cases net with
  | some net => exact ⟨net, rfl⟩
  | none => exact ⟨_, rfl⟩

/-- The effect of a line, if a user has a community. -/
theorem Loading.line_adds (l : Loading) (t : TextLine) (rule : Rule)
    (h : ∀ key, t = .user key → l.lastAddedComm.isSome = true) :
    l.Adds (l.line (t.attached rule)) [t.attached rule] := by
  cases t with
  | rule pattern => exact ⟨(List.append_nil _).symm, rfl, rfl, rfl⟩
  | user publicKey =>
    obtain ⟨p, hp⟩ := Option.isSome_iff_exists.mp (h publicKey rfl)
    have hline : l.line (TextLine.attached rule (.user publicKey)) =
        { l with sss := l.sss.modifyComm p (·.addUser publicKey) } := by
      rw [TextLine.attached, Loading.line, hp]
    rw [hline]
    refine ⟨?_, (List.append_nil _).symm, rfl, rfl⟩
    dsimp only
    rw [Sn.idents_modifyComm _ _ fun c => show (c.addUser publicKey).ident = c.ident from rfl]
    exact (List.append_nil _).symm
  | community name net =>
    obtain ⟨net', hsss⟩ := l.addCommunity_sss name net
    replace hsss : (l.line (TextLine.attached rule (.community name net))).sss = _ := hsss
    refine ⟨?_, ?_, rfl, ?_⟩
    · rw [hsss, Sn.idents_modifyComm _ _
        fun c => show ({ c with autoIpNet := net' } : Community).ident = c.ident from rfl]
      exact l.sss.idents_add (loadedCommunity name)
    · rw [hsss]
      exact (List.append_nil _).symm
    · rw [hsss]
      rfl

/-- Nothing is known before the first line. -/
theorem Follows.start (inetAddr : List UInt8 → UInt32) (sss : Sn) (publicKey : List UInt8) :
    Follows inetAddr [] ⟨false, publicKey⟩ ⟨sss, none, 0⟩ :=
  ⟨rfl, fun p h => by cases h⟩

/-- The names behind a line. -/
theorem communityNames_append (lines lines' : List (List UInt8)) :
    communityNames inetAddr (lines ++ lines') =
      communityNames inetAddr lines ++ communityNames inetAddr lines' := by
  unfold communityNames
  rw [List.filter_append, List.filterMap_append]

theorem communityNames_other (h : isUserLine line = false) :
    communityNames inetAddr [line] = (readLine inetAddr s line).name?.toList := by
  rw [readLine_other h]
  unfold communityNames
  rw [List.filter_cons_of_pos (by simp [h])]
  cases hname : (namedLine inetAddr line).name? with
  | none => simp [hname]
  | some name => simp [hname]

theorem communityNames_user (h : isUserLine line = true) : communityNames inetAddr [line] = [] := by
  unfold communityNames
  rw [List.filter_cons_of_neg (by simp [h])]
  rfl

/-- No line but a user line is a user. -/
theorem namedLine_ne_user (key : List UInt8) : namedLine inetAddr line ≠ .user key := by
  intro h
  unfold namedLine at h
  dsimp only at h
  split_ifs at h

/-- A user stands in a user line behind a community. -/
theorem readLine_isUser {key : List UInt8} (h : readLine inetAddr s line = .user key) :
    isUserLine line = true ∧ s.hasComm = true := by
  cases huser : isUserLine line with
  | false =>
    rw [readLine_other huser] at h
    exact absurd h (namedLine_ne_user key)
  | true =>
    rcases @readLine_user inetAddr s line huser with ⟨hok, -⟩ | ⟨-, pattern, hpattern⟩
    · exact ⟨rfl, (Bool.and_eq_true_iff.mp hok).2⟩
    · rw [hpattern] at h
      cases h

/-- A community stands in another line. -/
theorem readLine_community {name : List UInt8} {net : Option IpSubnet}
    (h : readLine inetAddr s line = .community name net) : isUserLine line = false := by
  rw [← Bool.not_eq_true]
  intro huser
  rcases @readLine_user inetAddr s line huser with ⟨-, key, hkey⟩ | ⟨-, pattern, hpattern⟩
  · rw [hkey] at h
    cases h
  · rw [hpattern] at h
    cases h

/-- **One line**: what the loop knows behind it. -/
theorem Follows.next (h : Follows inetAddr before s l) (line : List UInt8) (rule : Rule) :
    Follows inetAddr (before ++ [line]) (s.next (readLine inetAddr s line))
      (l.line ((readLine inetAddr s line).attached rule)) := by
  cases ht : readLine inetAddr s line with
  | rule pattern => exact ⟨rfl, fun p hp => by cases hp⟩
  | user key =>
    obtain ⟨huser, hcomm⟩ := readLine_isUser ht
    obtain ⟨p, hp⟩ := Option.isSome_iff_exists.mp (h.hasComm.symm.trans hcomm)
    rw [TextLine.attached, Loading.line, hp]
    dsimp only
    refine ⟨hcomm, ?_⟩
    rintro q ⟨⟩
    obtain ⟨c, hget, hfed, hname⟩ := h.nearest p hp
    -- the community has a user more
    refine ⟨c.addUser key, ?_, hfed, ?_⟩
    · rw [Sn.modifyComm, Table.get?_modify, if_pos rfl, hget]
      rfl
    · rw [communityNames_append, communityNames_user huser, List.append_nil]
      exact hname
  | community name net =>
    obtain ⟨net', hsss⟩ := l.addCommunity_sss name net
    refine ⟨rfl, fun p hp => ?_⟩
    replace hp : some l.sss.communities.next = some p := hp
    obtain rfl := Option.some.inj hp
    refine ⟨{ loadedCommunity name with autoIpNet := net' }, ?_, rfl, ?_⟩
    · show (l.addCommunity name net).sss.communities.get? _ = _
      rw [hsss, Sn.modifyComm, Table.get?_modify, if_pos rfl, Table.get?_add, if_pos rfl]
      rfl
    · rw [communityNames_append, communityNames_other (s := s) (readLine_community ht), ht]
      exact List.getLast?_concat

/-- The lines with their rules. -/
theorem attachRules_cons (rules : List Rule) (t : TextLine) (ts : List TextLine) :
    attachRules rules (t :: ts) = t.attached (rules.headD noRule) ::
      attachRules (rules.drop (linePatterns [t]).length) ts := by
  cases t with
  | rule pattern => simp [attachRules, TextLine.attached, linePatterns]
  | _ => rfl

/-- **All lines**: what the loop knows behind them, and what they have added. -/
theorem Follows.lines (h : Follows inetAddr before s l) (rules : List Rule)
    (lines : List (List UInt8)) :
    Follows inetAddr (before ++ lines) (s.after inetAddr lines)
        ((attachRules rules (readLines inetAddr s lines)).foldl Loading.line l) ∧
      l.Adds ((attachRules rules (readLines inetAddr s lines)).foldl Loading.line l)
        (attachRules rules (readLines inetAddr s lines)) := by
  induction lines generalizing before s l rules with
  | nil => exact ⟨by rwa [List.append_nil], .refl l⟩
  | cons line lines ih =>
    have hline := l.line_adds (readLine inetAddr s line) (rules.headD noRule) fun key hkey => by
      rw [← h.hasComm]
      exact (readLine_isUser hkey).2
    obtain ⟨hfollows, hadds⟩ := ih (h.next line (rules.headD noRule))
      (rules.drop (linePatterns [readLine inetAddr s line]).length)
    rw [readLines, attachRules_cons, List.foldl_cons]
    refine ⟨?_, hline.trans hadds⟩
    rw [List.append_cons]
    exact hfollows

/-! ### A file without its user lines -/

/-- The line is a community or a rule. -/
def TextLine.isOther : TextLine → Bool
  | .user _ => false
  | _ => true

/-- What the communities among some lines are found by. -/
def textIdents (ts : List TextLine) : List (List UInt8 × CommunityName) :=
  ts.filterMap fun t =>
    match t with
    | .community name _ => some (loadedCommunity name).ident
    | _ => none

theorem attachRules_idents (rules : List Rule) (ts : List TextLine) :
    (attachRules rules ts).flatMap CommunityLine.idents = textIdents ts := by
  induction ts generalizing rules with
  | nil => rfl
  | cons t ts ih =>
    rw [attachRules_cons, List.flatMap_cons, ih]
    cases t <;> rfl

/-- As many rules as patterns: all of them are added. -/
theorem attachRules_rules {rules : List Rule} {ts : List TextLine}
    (h : rules.length = (linePatterns ts).length) :
    (attachRules rules ts).flatMap CommunityLine.rules = rules := by
  induction ts generalizing rules with
  | nil => exact (List.eq_nil_of_length_eq_zero h).symm
  | cons t ts ih =>
    rw [attachRules_cons, List.flatMap_cons]
    cases t with
    | rule pattern =>
      cases rules with
      | nil => cases h
      | cons rule rules => exact congrArg (rule :: ·) (ih (Nat.succ.inj h))
    | community name net => exact ih h
    | user key => exact ih h

theorem attachRules_counts (rules : List Rule) (ts : List TextLine) :
    (attachRules rules ts).countP CommunityLine.counts = ts.countP TextLine.isOther := by
  induction ts generalizing rules with
  | nil => rfl
  | cons t ts ih =>
    rw [attachRules_cons, List.countP_cons, List.countP_cons, ih]
    cases t <;> rfl

theorem linePatterns_other (ts : List TextLine) :
    linePatterns (ts.filter TextLine.isOther) = linePatterns ts := by
  induction ts with
  | nil => rfl
  | cons t ts ih =>
    cases t with
    | user key => exact ih
    | rule pattern => exact congrArg (pattern :: ·) ih
    | community name net => exact ih

theorem textIdents_other (ts : List TextLine) :
    textIdents (ts.filter TextLine.isOther) = textIdents ts := by
  induction ts with
  | nil => rfl
  | cons t ts ih =>
    cases t with
    | user key => exact ih
    | rule pattern => exact ih
    | community name net => exact congrArg ((loadedCommunity name).ident :: ·) ih

/-- The names of the communities in the text. -/
theorem textIdents_names (s : LineState) (lines : List (List UInt8)) :
    (textIdents (readLines inetAddr s lines)).map (fun i => cstr i.2.toList) =
      communityNames inetAddr lines := by
  induction lines generalizing s with
  | nil => rfl
  | cons line lines ih =>
    have hcons := @communityNames_append inetAddr [line] lines
    rw [List.singleton_append] at hcons
    rw [hcons, readLines, ← ih (s.next (readLine inetAddr s line))]
    cases huser : isUserLine line with
    | false =>
      rw [communityNames_other (s := s) huser]
      cases readLine inetAddr s line <;> rfl
    | true =>
      rw [communityNames_user huser]
      rcases @readLine_user inetAddr s line huser with ⟨-, key, ht⟩ | ⟨-, pattern, ht⟩
      · rw [ht]
        rfl
      · rw [ht]
        rfl

/-- Behind another line there is a community for users if the line is one. -/
theorem LineState.next_other (h : isUserLine line = false) :
    (s.next (readLine inetAddr s line)).hasComm = (namedLine inetAddr line).name?.isSome := by
  rw [readLine_other h]
  cases hnamed : namedLine inetAddr line with
  | user key => exact absurd hnamed (namedLine_ne_user key)
  | rule pattern => rfl
  | community name net => rfl

/-- Behind a user it is the same as before. -/
theorem LineState.next_user (h : isUserLine line = true)
    (hok : ((scanUser line).isSome && s.hasComm) = true) :
    (∃ key, readLine inetAddr s line = .user key) ∧
      (s.next (readLine inetAddr s line)).hasComm = s.hasComm := by
  rcases readLine_user  h with ⟨-, key, ht⟩ | ⟨hnot, -⟩
  · rw [ht]
    exact ⟨⟨key, rfl⟩, rfl⟩
  · rw [hok] at hnot
    cases hnot

/-- The places in a list with one more line. -/
theorem splits_cons {lines : List (List UInt8)} {Q : List (List UInt8) → List UInt8 → Prop} :
    (∀ before line' later, line :: lines = before ++ line' :: later → Q before line') ↔
      Q [] line ∧ ∀ before line' later, lines = before ++ line' :: later →
        Q (line :: before) line' := by
  constructor
  · intro h
    refine ⟨h [] line lines rfl, fun before line' later hlines => ?_⟩
    exact h (line :: before) line' later (by rw [hlines, List.cons_append])
  · rintro ⟨hhere, hthere⟩ before line' later hlines
    cases before with
    | nil =>
      obtain ⟨rfl, -⟩ := List.cons.inj hlines
      exact hhere
    | cons b before =>
      obtain ⟨rfl, htail⟩ := List.cons.inj hlines
      exact hthere before line' later htail

/-- Whether users are in place is whether the loop finds them so. -/
theorem usersPlaced_iff {lines : List (List UInt8)} :
    usersPlaced inetAddr s.hasComm lines = true ↔
      ∀ before line later, lines = before ++ line :: later → isUserLine line = true →
        ((scanUser line).isSome && (s.after inetAddr before).hasComm) = true := by
  induction lines generalizing s with
  | nil => simp [usersPlaced]
  | cons line lines ih =>
    rw [splits_cons (Q := fun before line => isUserLine line = true →
      ((scanUser line).isSome && (s.after inetAddr before).hasComm) = true)]
    -- the places behind the first line
    replace ih := ih (s := s.next (readLine inetAddr s line))
    rw [usersPlaced]
    cases huser : isUserLine line with
    | false =>
      rw [LineState.next_other huser] at ih
      rw [if_neg Bool.false_ne_true, ih]
      exact ⟨fun h => ⟨fun hline => absurd hline Bool.false_ne_true, h⟩, fun h => h.2⟩
    | true =>
      rw [if_pos rfl, Bool.and_eq_true_iff]
      constructor
      · rintro ⟨hok, hrest⟩
        rw [(LineState.next_user huser hok).2] at ih
        exact ⟨fun _ => hok, ih.mp hrest⟩
      · rintro ⟨hhere, hrest⟩
        have hok : ((scanUser line).isSome && s.hasComm) = true := hhere rfl
        rw [(LineState.next_user huser hok).2] at ih
        exact ⟨hok, ih.mpr hrest⟩

/-- **If the users are in place, the other lines are read as if there were no users.** -/
theorem readLines_other (s' : LineState) {lines : List (List UInt8)}
    (h : usersPlaced inetAddr s.hasComm lines = true) :
    readLines inetAddr s' (lines.filter (!isUserLine ·)) =
      (readLines inetAddr s lines).filter TextLine.isOther := by
  induction lines generalizing s s' with
  | nil => rfl
  | cons line lines ih =>
    rw [usersPlaced] at h
    cases huser : isUserLine line with
    | false =>
      rw [huser, if_neg Bool.false_ne_true, ← LineState.next_other (s := s) huser] at h
      rw [List.filter_cons_of_pos (by simp [huser]), readLines, readLines, ih _ h,
        readLine_other (s := s') huser, ← readLine_other (s := s) huser]
      cases ht : readLine inetAddr s line with
      | user key =>
        rw [readLine_other huser] at ht
        exact absurd ht (namedLine_ne_user key)
      | _ => rfl
    | true =>
      rw [huser, if_pos rfl, Bool.and_eq_true_iff] at h
      obtain ⟨⟨key, ht⟩, hcomm⟩ := LineState.next_user  huser h.1
      rw [← hcomm] at h
      rw [List.filter_cons_of_neg (by simp [huser]), readLines, ih s' h.2, ht]
      rfl

end Lines

/-! ### The load -/

/-- There are no rules before the first line. -/
theorem World.beforeLines_rules (w : World) : w.beforeLines.sss.rules = [] := by
  refine reRegisterSupernodes_invariant (I := fun sss => sss.rules = []) ?_ (fun _ _ h => h) rfl
  intro sss fd h
  exact (closeTcpConnection_rules sss _).trans h

/-- Before the first line there is at most one name, which is the federation's. -/
theorem World.beforeLines_names {w : World} (hw : w.sss.FederationNamed) :
    w.beforeLines.sss.names.Nodup ∧ ∀ name ∈ w.beforeLines.sss.names, name.headD 0 = 0x2a := by
  have hfed : ∀ e ∈ w.beforeLines.sss.communities.entries,
      e.1 = w.beforeLines.sss.federation ∧ e.2.community.toList.headD 0 = 0x2a := by
    intro e he
    have hget := Table.get?_eq_some.mpr he
    exact beforeLines_named hw e.1 e.2 hget (beforeLines_federation e.1 e.2 hget)
  unfold Sn.names Table.values
  rw [List.map_map]
  constructor
  · -- all entries have one address
    refine List.Nodup.map_on ?_ (List.Nodup.of_map _ w.beforeLines.sss.communities.nodup)
    intro e he e' he' _
    exact List.inj_on_of_nodup_map w.beforeLines.sss.communities.nodup he he'
      ((hfed e he).1.trans (hfed e' he').1.symm)
  · intro name hname
    obtain ⟨e, he, rfl⟩ := List.mem_map.mp hname
    have hhead := (hfed e he).2
    show (cstr e.2.community.toList).headD 0 = 0x2a
    cases hlist : e.2.community.toList with
    | nil =>
      rw [hlist] at hhead
      cases hhead
    | cons b bs =>
      rw [hlist] at hhead
      obtain rfl : b = 0x2a := hhead
      rfl

/-- The name that is stored: the first 19 characters. -/
theorem cstr_commInitName (word : List UInt8) :
    cstr (commInitName word).toList = (cstr word).take 19 := by
  have hchars : ∀ c ∈ (cstr word).take 19, (c != 0) = true := by
    intro c hc
    have hmem : c ∈ word.takeWhile (· != 0) := List.mem_of_mem_take hc
    exact List.mem_takeWhile_imp (p := (· != 0)) hmem
  show cstr ((cstr word).take 19 ++ List.replicate (20 - ((cstr word).take 19).length) 0) = _
  generalize (cstr word).take 19 = name at hchars
  unfold cstr
  rw [List.takeWhile_append_of_pos hchars]
  simp

/-- No community line gives the federation's name. -/
theorem communityNames_head {inetAddr : List UInt8 → UInt32} {lines : List (List UInt8)}
    {name : List UInt8} (h : name ∈ communityNames inetAddr lines) : name.headD 0 ≠ 0x2a := by
  obtain ⟨line, -, hname⟩ := List.mem_filterMap.mp h
  unfold namedLine at hname
  dsimp only at hname
  generalize (scanWord line.length line).1 = word at hname
  by_cases hspecial : word.any (reChars.contains ·) = true
  · rw [if_pos hspecial] at hname
    cases hname
  · -- the character of user lines is special, so that the word does not begin with it
    rw [if_neg hspecial] at hname
    obtain rfl := Option.some.inj hname
    rw [cstr_commInitName]
    cases word with
    | nil => decide
    | cons c word =>
      intro hhead
      refine hspecial ?_
      rw [List.any_cons, Bool.or_eq_true]
      refine .inl ?_
      by_cases hc : c = 0
      · subst hc
        cases hhead
      · have hcons : cstr (c :: word) = c :: cstr word :=
          List.takeWhile_cons_of_pos (by simpa using hc)
        rw [hcons] at hhead
        obtain rfl : c = 0x2a := hhead
        decide

/-- What the loop knows and has added behind some lines. -/
theorem World.loadingOf_spec (w : World) (env : FileEnv) (lines before : List (List UInt8)) :
    Follows env.inetAddr before (LineState.after env.inetAddr ⟨false, env.publicKey⟩ before)
        (w.loadingOf env lines before) ∧
      Loading.Adds ⟨w.beforeLines.sss, none, 0⟩ (w.loadingOf env lines before)
        (attachRules (env.rules (linePatterns (env.read lines))) (env.read before)) :=
  (Follows.start env.inetAddr w.beforeLines.sss env.publicKey).lines _ before

/-- One line more. -/
theorem World.loadingOf_append (w : World) (env : FileEnv) (lines before : List (List UInt8))
    (line : List UInt8) : ∃ rule, w.loadingOf env lines (before ++ [line]) =
      (w.loadingOf env lines before).line ((readLine env.inetAddr
        (LineState.after env.inetAddr ⟨false, env.publicKey⟩ before) line).attached rule) := by
  refine ⟨((env.rules (linePatterns (env.read lines))).drop
    (linePatterns (env.read before)).length).headD noRule, ?_⟩
  unfold loadingOf FileEnv.read
  rw [readLines_append, attachRules_append, List.foldl_append, readLines, attachRules_cons]
  rfl

/-- **What a load leaves behind.** -/
theorem World.loadCommunityLines_spec (w : World) (env : FileEnv) (lines : List (List UInt8)) :
    (w.loadCommunityLines env lines).1.sss.idents =
        w.beforeLines.sss.idents ++ textIdents (env.read lines) ∧
      ((w.loadCommunityLines env lines).2 = 0 ↔ (env.read lines).countP TextLine.isOther ≠ 0) ∧
      ((w.loadCommunityLines env lines).2 = 0 →
        (w.loadCommunityLines env lines).1.sss.rules = env.rules (linePatterns (env.read lines)) ∧
          (w.loadCommunityLines env lines).1.sss.lockCommunities = true) := by
  obtain ⟨-, hadds⟩ := w.loadingOf_spec env lines lines
  have hidents := hadds.idents
  have hrules := hadds.rules
  have hnum := hadds.num
  rw [attachRules_idents] at hidents
  rw [attachRules_rules (by simp [FileEnv.rules]), w.beforeLines_rules, List.nil_append] at hrules
  rw [attachRules_counts, Nat.zero_add] at hnum
  unfold loadCommunityLines
  rw [loadAllowedSnCommunity_eq]
  dsimp only
  change (w.loadingOf env lines lines).sss.idents = _ at hidents
  generalize hl : (attachRules (env.rules (linePatterns (env.read lines)))
    (env.read lines)).foldl Loading.line ⟨w.beforeLines.sss, none, 0⟩ = l
  replace hl : w.loadingOf env lines lines = l := hl
  rw [hl] at hidents hrules hnum
  rw [← hnum]
  split_ifs with hzero
  · refine ⟨hidents, by simp [hzero], fun h => by cases h⟩
  · refine ⟨?_, by simp [hzero], fun _ => ⟨hrules, rfl⟩⟩
    exact ((Sn.idents_calculateDynamicKeys _).trans (Sn.idents_calculateSharedSecrets _ _)).trans
      hidents

/-! ### The law -/

/-- The names are different if those of the community lines are. -/
theorem names_nodup_iff {w : World} (hw : w.sss.FederationNamed) (env : FileEnv)
    (lines : List (List UInt8)) :
    (w.loadCommunityLines env lines).1.sss.names.Nodup ↔
      (communityNames env.inetAddr lines).Nodup := by
  obtain ⟨hidents, -⟩ := w.loadCommunityLines_spec env lines
  have hnames : (w.loadCommunityLines env lines).1.sss.names =
      w.beforeLines.sss.names ++ communityNames env.inetAddr lines := by
    rw [Sn.names_eq, Sn.names_eq, hidents, List.map_append, FileEnv.read, textIdents_names]
  obtain ⟨hnodup, hhead⟩ := w.beforeLines_names hw
  rw [hnames, List.nodup_append]
  refine ⟨fun h => h.2.1, fun h => ⟨hnodup, h, ?_⟩⟩
  rintro name hname name' hname' rfl
  exact communityNames_head hname' (hhead name hname)

/-- The user lines add at most users if they are in place. -/
theorem users_iff (w : World) (env : FileEnv) (lines : List (List UInt8)) :
    (∀ before line later, lines = before ++ line :: later → isUserLine line = true →
      AddsUserAtMost (w.loadingOf env lines before) (w.loadingOf env lines (before ++ [line]))
        (communityNames env.inetAddr before).getLast?) ↔
      usersPlaced env.inetAddr false lines = true := by
  rw [usersPlaced_iff (s := ⟨false, env.publicKey⟩)]
  refine forall_congr' fun before => forall_congr' fun line => forall_congr' fun later =>
    forall_congr' fun _ => forall_congr' fun huser => ?_
  obtain ⟨hfollows, -⟩ := w.loadingOf_spec env lines before
  obtain ⟨rule, happend⟩ := w.loadingOf_append env lines before line
  rw [happend]
  rcases readLine_user 
    (s := LineState.after env.inetAddr ⟨false, env.publicKey⟩ before) huser with
    ⟨hok, key, ht⟩ | ⟨hnot, pattern, ht⟩
  · -- a user is added to the last community
    rw [ht, TextLine.attached]
    refine ⟨fun _ => hok, fun _ => ?_⟩
    have hsome := hfollows.hasComm.symm.trans (Bool.and_eq_true_iff.mp hok).2
    obtain ⟨p, hp⟩ := Option.isSome_iff_exists.mp hsome
    obtain ⟨c, hget, hfed, hname⟩ := hfollows.nearest p hp
    rw [Loading.line, hp]
    refine ⟨rfl, ?_, .inr ⟨p, c, key, hget, hfed, hname, rfl⟩⟩
    rw [Sn.names_eq, Sn.names_eq]
    dsimp only
    rw [Sn.idents_modifyComm _ _ fun c => show (c.addUser key).ident = c.ident from rfl]
  · -- the line becomes a rule
    rw [ht, hnot]
    refine ⟨fun h => ?_, fun h => by cases h⟩
    have hrules := h.rules
    exact absurd hrules (by simp [TextLine.attached, Loading.line, Loading.addRule])

/-- A file with a line counts a line. -/
theorem lines_eq_nil_of_count {env : FileEnv} {lines : List (List UInt8)}
    (h : (env.read lines).countP TextLine.isOther = 0) : lines = [] := by
  cases lines with
  | nil => rfl
  | cons line lines =>
    -- the first line is no user
    have hother : (readLine env.inetAddr ⟨false, env.publicKey⟩ line).isOther = true := by
      cases ht : readLine env.inetAddr ⟨false, env.publicKey⟩ line with
      | user key => exact absurd (readLine_isUser ht).2 Bool.false_ne_true
      | _ => rfl
    rw [FileEnv.read, readLines, List.countP_cons_of_pos hother] at h
    cases h

/-- If the users are in place, the other lines let the same registrations in. -/
theorem enters_other {w : World} {env : FileEnv} {lines : List (List UInt8)}
    (hret : (w.loadCommunityLines env lines).2 = 0)
    (husers : usersPlaced env.inetAddr false lines = true) (name : CommunityName) :
    (w.loadCommunityLines env lines).1.sss.Enters name ↔
      (w.loadCommunityLines env (lines.filter (!isUserLine ·))).1.sss.Enters name := by
  have hread : env.read (lines.filter (!isUserLine ·)) =
      (env.read lines).filter TextLine.isOther :=
    readLines_other (s := ⟨false, env.publicKey⟩) _ husers
  obtain ⟨hidents, hzero, hspec⟩ := w.loadCommunityLines_spec env lines
  obtain ⟨hidents', hzero', hspec'⟩ :=
    w.loadCommunityLines_spec env (lines.filter (!isUserLine ·))
  rw [hread, textIdents_other] at hidents'
  rw [hread, List.countP_filter] at hzero'
  rw [hread, linePatterns_other] at hspec'
  have hret' := hzero'.mpr (by simpa using hzero.mp hret)
  obtain ⟨hrules, hlock⟩ := hspec hret
  obtain ⟨hrules', hlock'⟩ := hspec' hret'
  exact Sn.enters_congr (hidents.trans hidents'.symm) (hrules.trans hrules'.symm)
    (hlock.trans hlock'.symm) name

/-- **The law of the community file.** In every run a file that is loaded keeps the law exactly
if the names on its community lines are different, and each of its user lines has a name and a
key and a community as the last other line before it. -/
theorem communityFileLaw_iff {w : World} (hw : snNamedMachine.Reach anyStep w) (env : FileEnv)
    (file : List UInt8) :
    ((w.loadCommunityText env file).2 = 0 → CommunityFileLaw w env (fileLines file)) ↔
      (communityNames env.inetAddr (fileLines file)).Nodup ∧
        usersPlaced env.inetAddr false (fileLines file) = true := by
  have hnamed := federationNamed_of_reach hw
  unfold World.loadCommunityText
  generalize fileLines file = lines
  constructor
  · intro h
    by_cases hret : (w.loadCommunityLines env lines).2 = 0
    · have hlaw := h hret
      exact ⟨(names_nodup_iff hnamed env lines).mp hlaw.distinct,
        (users_iff w env lines).mp hlaw.users⟩
    · -- there are no lines
      obtain ⟨-, hzero, -⟩ := w.loadCommunityLines_spec env lines
      obtain rfl : lines = [] := lines_eq_nil_of_count (by simpa using mt hzero.mpr hret)
      exact ⟨List.nodup_nil, rfl⟩
  · rintro ⟨hnodup, husers⟩ hret
    exact ⟨(names_nodup_iff hnamed env lines).mpr hnodup, (users_iff w env lines).mpr husers,
      enters_other hret husers⟩

/-- No shared secrets, and no address that can be read. -/
def plainFileEnv : FileEnv where
  inetAddr _ := 0
  publicKey := List.replicate 32 0
  cclBase := 0
  cclBehind := []
  compiled := []
  secret _ := List.replicate 32 0

/-- A community with a user. -/
def officeText : List UInt8 := ascii "office" ++ [0x0a] ++ ascii "* alice 3Kpq" ++ [0x0a]

/-- It keeps the law. -/
theorem communityFileLaw_office :
    CommunityFileLaw (.start netSn) plainFileEnv (fileLines officeText) := by
  have hreach : snNamedMachine.Reach anyStep (.start netSn) := .init netSn_named
  exact (communityFileLaw_iff hreach plainFileEnv officeText).mpr
    ⟨by decide +kernel, by decide +kernel⟩ (by decide +kernel)

/-- A user behind a regular expression. -/
def strayUserText : List UInt8 := ascii "lab.+" ++ [0x0a] ++ ascii "* alice 3Kpq" ++ [0x0a]

/-- **The law fails**: the user line becomes a second regular expression. -/
theorem not_communityFileLaw_strayUser :
    ¬(((World.start netSn).loadCommunityText plainFileEnv strayUserText).2 = 0 →
      CommunityFileLaw (.start netSn) plainFileEnv (fileLines strayUserText)) := by
  intro h
  have hret : ((World.start netSn).loadCommunityText plainFileEnv strayUserText).2 = 0 := by
    decide +kernel
  have hplaced := (users_iff _ plainFileEnv (fileLines strayUserText)).mp (h hret).users
  have hnot : usersPlaced plainFileEnv.inetAddr false (fileLines strayUserText) = false := by
    decide +kernel
  rw [hnot] at hplaced
  cases hplaced

end N2n
