import N2nTun.SharedSecret

/-!
# From a password to the keys

A user authenticates with what `n2n-keygen` has printed: one line stands somewhere in the community
file of the supernode, and the edge has the key of the federation.  The supernode reads the file
and computes the secrets of its users, the edge computes its own from the password, and the
answer to the registration then gives the edge the keys that the headers of the community are
encrypted with.

## Main definitions

* `UserName` — the names that fit into the line and into the description of the edge.
* `FederationKeyKnown` — the edge has been given the right key of the federation.
* `communityPath` — the community file that the options name.
* `Community.Serves` — what the supernode has for a user.

## Main results

* `fileLines_keygen` — the line is one of the lines of the file.
* `snMain_serves` — **the supernode starts with the secret of the user.**
* `user_authenticates` — **the edge gets the keys of the community.**
-/

namespace N2n

open Bytes Tokens

/-! ### The lines of a text -/

/-- The text is empty or ends with a newline. -/
def EndsLine (p : List UInt8) : Prop := ∀ c ∈ p.getLast?, c = 0x0a

theorem EndsLine.nil : EndsLine [] := fun _ hc => by cases hc

theorem EndsLine.tail {b : UInt8} {p : List UInt8} (h : EndsLine (b :: p)) : EndsLine p := by
  cases p with
  | nil => exact .nil
  | cons b' p => exact fun c hc => h c (by rwa [List.getLast?_cons_cons])

/-- A line is read from a text, whatever comes behind the text. -/
theorem fgets_append (n : ℕ) {p : List UInt8} (hne : p ≠ []) (h : EndsLine p) (q : List UInt8) :
    fgets n (p ++ q) = ((fgets n p).1, (fgets n p).2 ++ q) ∧ EndsLine (fgets n p).2 := by
  induction n generalizing p with
  | zero => exact ⟨rfl, h⟩
  | succ n ih =>
    cases p with
    | nil => exact absurd rfl hne
    | cons b p =>
      by_cases hb : b = 0x0a
      · simp [fgets, hb, h.tail]
      · have hp : p ≠ [] := by
          rintro rfl
          exact hb (h b rfl)
        obtain ⟨heq, hend⟩ := ih hp h.tail
        simp only [List.cons_append, fgets, beq_eq_false_iff_ne.mpr hb, Bool.false_eq_true,
          if_false, heq]
        exact ⟨trivial, hend⟩

/-- Something is read. -/
theorem length_fgets {n : ℕ} (hn : 0 < n) {p : List UInt8} (hne : p ≠ []) :
    (fgets n p).2.length < p.length := by
  have hle : ∀ n (p : List UInt8), (fgets n p).2.length ≤ p.length := by
    intro n
    induction n with
    | zero => exact fun _ => le_rfl
    | succ n ih =>
      intro p
      cases p with
      | nil => exact le_rfl
      | cons b p =>
        unfold fgets
        split_ifs
        · exact Nat.le_succ _
        · exact (ih p).trans (Nat.le_succ _)
  obtain ⟨n, rfl⟩ := Nat.exists_eq_add_one.mpr hn
  cases p with
  | nil => exact absurd rfl hne
  | cons b p =>
    unfold fgets
    split_ifs
    · exact Nat.lt_succ_self _
    · exact Nat.lt_succ_of_le (hle n p)

/-- As many calls as there are bytes are enough. -/
theorem fgetsLoop_eq {n : ℕ} {p : List UInt8} (h : p.length ≤ n) :
    fgetsLoop n p = fgetsLoop p.length p := by
  induction n using Nat.strong_induction_on generalizing p with
  | h n ih =>
    cases p with
    | nil => cases n <;> rfl
    | cons b p =>
      cases n with
      | zero => cases h
      | succ n =>
        have hread := length_fgets (n := 4095) (by decide) (List.cons_ne_nil b p)
        simp only [List.length_cons] at h hread ⊢
        rw [fgetsLoop, fgetsLoop, if_neg (List.cons_ne_nil b p), if_neg (List.cons_ne_nil b p)]
        dsimp only
        rw [ih n (Nat.lt_succ_self n) (by omega), ih p.length (by omega) (by omega)]

/-- The text is read up to a line, and then what is behind it. -/
theorem fgetsLoop_append {p : List UInt8} (h : EndsLine p) (q : List UInt8) :
    fgetsLoop (p ++ q).length (p ++ q) = fgetsLoop p.length p ++ fgetsLoop q.length q := by
  induction hn : p.length using Nat.strong_induction_on generalizing p with
  | h n ih =>
    cases p with
    | nil =>
      obtain rfl := hn
      rfl
    | cons b p =>
      obtain rfl := hn
      obtain ⟨heq, hend⟩ := fgets_append 4095 (List.cons_ne_nil b p) h q
      have hread := length_fgets (n := 4095) (by decide) (List.cons_ne_nil b p)
      have hloop := ih _ hread hend rfl
      have hne : b :: p ++ q ≠ [] := List.cons_ne_nil b (p ++ q)
      simp only [List.length_cons] at hread
      rw [List.cons_append, List.length_cons, fgetsLoop, if_neg (List.cons_ne_nil _ _),
        ← List.cons_append, heq, List.length_cons, fgetsLoop, if_neg (List.cons_ne_nil b p)]
      dsimp only
      rw [fgetsLoop_eq (by simp; omega), hloop, fgetsLoop_eq (n := p.length) (by omega)]
      rfl

theorem fileLines_append {p : List UInt8} (h : EndsLine p) (q : List UInt8) :
    fileLines (p ++ q) = fileLines p ++ fileLines q := by
  unfold fileLines
  rw [fgetsLoop_append h, List.filterMap_append]

/-- A line that fits into the buffer is read as a whole. -/
theorem fgets_line {n : ℕ} {line : List UInt8} (hlen : line.length < n)
    (hline : ∀ c ∈ line, c ≠ 0x0a) (q : List UInt8) :
    fgets n (line ++ 0x0a :: q) = (line ++ [0x0a], q) := by
  induction line generalizing n with
  | nil =>
    obtain ⟨n, rfl⟩ := Nat.exists_eq_add_one.mpr hlen
    simp [fgets]
  | cons b line ih =>
    obtain ⟨n, rfl⟩ := Nat.exists_eq_add_one.mpr (Nat.zero_lt_of_lt hlen)
    have hb : (b == 0x0a) = false := beq_eq_false_iff_ne.mpr (hline b List.mem_cons_self)
    simp only [List.cons_append, fgets, hb, Bool.false_eq_true, if_false]
    rw [ih (Nat.lt_of_succ_lt_succ hlen) fun c hc => hline c (List.mem_cons_of_mem _ hc)]

/-- **A plain line of the file** is one of its lines, as it is. -/
theorem fileLines_cons {line : List UInt8} (hlen : 2 ≤ line.length) (hlen' : line.length < 4095)
    (hstart : line.headD 0 ≠ 0x23) (hline : ∀ c ∈ line, c ≠ 0x0a ∧ c ≠ 0x0d ∧ c ≠ 0)
    (q : List UInt8) : fileLines (line ++ 0x0a :: q) = line :: fileLines q := by
  obtain ⟨b, rest, rfl⟩ : ∃ b rest, line = b :: rest := by
    cases line with
    | nil => cases hlen
    | cons b rest => exact ⟨b, rest, rfl⟩
  have hcstr : cstr (b :: rest ++ [0x0a]) = b :: rest ++ [0x0a] := by
    refine List.takeWhile_eq_self_iff.mpr fun c hc => ?_
    rcases List.mem_append.mp hc with hc | hc
    · exact bne_iff_ne.mpr (hline c hc).2.2
    · rw [List.mem_singleton.mp hc]
      rfl
  -- nothing is cut off but the newline
  have hstrip : stripLine (b :: rest ++ [0x0a]) = b :: rest := by
    have hend : rest.reverse.dropWhile (fun b => b == 0x0a || b == 0x0d) = rest.reverse := by
      cases hrev : rest.reverse with
      | nil => rfl
      | cons c cs =>
        have hc : c ∈ b :: rest :=
          List.mem_cons_of_mem _ (List.mem_reverse.mp (hrev ▸ List.mem_cons_self))
        simp [(hline c hc).1, (hline c hc).2.1]
    simp [stripLine, hend]
  have hfgets := fgets_line (n := 4095) hlen' (fun c hc => (hline c hc).1) q
  obtain ⟨n, hn⟩ : ∃ n, (b :: rest ++ 0x0a :: q).length = n + 1 := ⟨_, rfl⟩
  have hq : q.length ≤ n := by
    simp only [List.length_append, List.length_cons] at hn
    omega
  unfold fileLines
  rw [hn, fgetsLoop, if_neg (List.append_ne_nil_of_right_ne_nil _ (List.cons_ne_nil _ _)), hfgets]
  dsimp only
  rw [fgetsLoop_eq hq, List.filterMap_cons, hcstr]
  rw [hstrip]
  have hshort : ((b :: rest ++ [0x0a]).length < 2 ||
      (b :: rest ++ [0x0a]).headD 0 == 0x23) = false := by
    have hb : b ≠ 0x23 := hstart
    simp only [List.length_cons] at hlen
    simp [hb]
  rw [hshort]
  rfl

/-! ### The line of a user -/

/-- A name that fits into a line of the file and into the description of an edge, and that
`n2n-keygen` does not take for an option. -/
structure UserName (username : List UInt8) : Prop where
  nonempty : username ≠ []
  length : username.length ≤ 15
  chars : ∀ c ∈ username, isSpace c = false ∧ c ≠ 0
  noOption : username ≠ ascii "-F"

theorem UserName.cstr {username : List UInt8} (h : UserName username) :
    cstr username = username :=
  List.takeWhile_eq_self_iff.mpr fun c hc => bne_iff_ne.mpr (h.chars c hc).2

/-- A word between white space. -/
theorem scanWord_word (width : ℕ) {word : List UInt8} (rest : List UInt8) (hne : word ≠ [])
    (hlen : word.length ≤ width) (hchars : ∀ c ∈ word, isSpace c = false)
    (hrest : ∀ c ∈ rest.head?, isSpace c = true) :
    scanWord width (0x20 :: (word ++ rest)) = (word, rest) := by
  have hdrop : (0x20 :: (word ++ rest)).dropWhile isSpace = word ++ rest := by
    cases word with
    | nil => exact absurd rfl hne
    | cons c word =>
      have hspace : isSpace 0x20 = true := by decide
      simp [hspace, hchars c List.mem_cons_self]
  have htake : (word ++ rest).takeWhile (!isSpace ·) = word := by
    rw [List.takeWhile_append_of_pos fun c hc => by simp [hchars c hc]]
    cases rest with
    | nil => simp
    | cons c rest => simp [hrest c rfl]
  unfold scanWord
  dsimp only
  rw [hdrop, htake, List.take_of_length_le hlen, List.drop_left' rfl]

/-- The line for a user with a key. -/
def userLine (username key : List UInt8) : List UInt8 :=
  ascii "* " ++ username ++ ascii " " ++ keyText key

theorem scanUser_userLine {username key : List UInt8} (h : UserName username)
    (hkey : key.length = privatePublicKeySize) :
    scanUser (userLine username key) = some (username, keyText key) := by
  have hlen := length_keyText hkey
  have htext : keyText key ≠ [] := List.ne_nil_of_length_eq_add_one hlen
  have hfirst : scanWord 15 ((userLine username key).drop 1) = (username, 0x20 :: keyText key) := by
    have hword := scanWord_word 15 (0x20 :: keyText key) h.nonempty h.length
      (fun c hc => (h.chars c hc).1) (by rintro c ⟨⟩; decide)
    simpa [userLine, ascii] using hword
  have hsecond : scanWord 43 (0x20 :: keyText key) = (keyText key, []) := by
    have hword := scanWord_word 43 [] htext hlen.le
      (fun c hc => (keyText_chars hc).1) (by simp)
    rwa [List.append_nil] at hword
  unfold scanUser
  dsimp only
  rw [hfirst, hsecond]
  simp [h.nonempty, htext]

/-- **The line is read as the user with the key**, if there is a community. -/
theorem readLine_userLine {inetAddr : List UInt8 → UInt32} {s : LineState}
    {username key : List UInt8} (h : UserName username) (hkey : key.length = privatePublicKeySize)
    (hcomm : s.hasComm = true) (hbuffer : s.publicKey.length = privatePublicKeySize) :
    readLine inetAddr s (userLine username key) = .user key := by
  have huser : isUserLine (userLine username key) = true := rfl
  unfold readLine
  rw [scanUser_userLine h hkey]
  dsimp only
  rw [huser, hcomm, asciiToBin_keyText (hbuffer.trans hkey.symm)]
  rfl

/-- **What `n2n-keygen` prints for a user** is a line of the file, wherever it stands. -/
theorem fileLines_keygen {username : List UInt8} (h : UserName username) (password : List UInt8)
    {before : List UInt8} (hbefore : EndsLine before) (later : List UInt8) :
    fileLines (before ++ keygen username password ++ later) =
      fileLines before ++
        userLine username (generatePublicKey (userPrivateKey username password)) ::
          fileLines later := by
  have hlen := length_keyText (length_generatePublicKey (userPrivateKey username password))
  have hline : (userLine username
      (generatePublicKey (userPrivateKey username password))).length = username.length + 46 := by
    simp [userLine, ascii, hlen]
  have hchars : ∀ c ∈ userLine username (generatePublicKey (userPrivateKey username password)),
      c ≠ 0x0a ∧ c ≠ 0x0d ∧ c ≠ 0 := by
    have hspace : ∀ c : UInt8, isSpace c = false → c ≠ 0 → c ≠ 0x0a ∧ c ≠ 0x0d ∧ c ≠ 0 := by
      rintro c hc hzero
      refine ⟨?_, ?_, hzero⟩ <;> rintro rfl <;> exact absurd hc (by decide)
    have hall : ∀ s : List UInt8, s.all (fun c => decide (c ≠ 0x0a ∧ c ≠ 0x0d ∧ c ≠ 0)) = true →
        ∀ c ∈ s, c ≠ 0x0a ∧ c ≠ 0x0d ∧ c ≠ 0 :=
      fun s hs c hc => of_decide_eq_true (List.all_eq_true.mp hs c hc)
    intro c hc
    simp only [userLine, List.mem_append] at hc
    rcases hc with ((hc | hc) | hc) | hc
    · exact hall (ascii "* ") (by decide) c hc
    · exact hspace c (h.chars c hc).1 (h.chars c hc).2
    · exact hall (ascii " ") (by decide) c hc
    · exact hspace c (keyText_chars hc).1 (bne_iff_ne.mp (keyText_chars hc).2.1)
  have hname := h.length
  have hstar : ∀ key, (userLine username key).headD 0 = 0x2a := fun _ => rfl
  have hcons := fileLines_cons (by omega) (by omega) (by rw [hstar]; decide) hchars later
  rw [List.append_assoc, fileLines_append hbefore, keygen_user h.noOption]
  simpa [userLine] using hcons

/-! ### Loading the file -/

/-- The buffer for keys keeps its size. -/
theorem length_publicKey_after {inetAddr : List UInt8 → UInt32} {s : LineState}
    (h : s.publicKey.length = privatePublicKeySize) (lines : List (List UInt8)) :
    (s.after inetAddr lines).publicKey.length = privatePublicKeySize := by
  have hscan : ∀ {line : List UInt8} {u key}, scanUser line = some (u, key) →
      key.length ≤ 43 := by
    intro line u key hscan
    unfold scanUser at hscan
    dsimp only at hscan
    split_ifs at hscan
    obtain ⟨-, rfl⟩ := Prod.mk.inj (Option.some.inj hscan)
    exact List.length_take_le _ _
  have hline : ∀ {s : LineState} (line : List UInt8), s.publicKey.length = privatePublicKeySize →
      (s.next (readLine inetAddr s line)).publicKey.length = privatePublicKeySize := by
    intro s line hs
    cases hread : readLine inetAddr s line with
    | community name net => exact hs
    | rule pattern => exact hs
    | user key =>
      show key.length = privatePublicKeySize
      unfold readLine at hread
      split at hread
      · rename_i u text htext
        have hshort := hscan htext
        split_ifs at hread
        · obtain rfl := TextLine.user.inj hread
          have hsize : 6 * text.length / 8 ≤ 32 := by omega
          have h32 : s.publicKey.length = 32 := hs
          rw [asciiToBin_eq, List.length_append, length_textBytes, List.length_drop, h32]
          exact Nat.add_sub_of_le hsize
        · exact absurd hread (namedLine_ne_user key)
      · exact absurd hread (namedLine_ne_user key)
  unfold LineState.after
  induction lines generalizing s with
  | nil => exact h
  | cons line lines ih => exact ih (hline line h)

/-- A user with the key is in the community, which has no dynamic key yet. -/
structure Community.HasUser (c : Community) (name key : List UInt8) : Prop where
  isFederation : c.isFederation = false
  name : c.name = name
  keys : c.keys = packetHeaderSetupKey c.community.toList
  user : ∃ user ∈ c.allowedUsers, user.publicKey = key

/-- The user has been read. -/
structure Loading.HasUser (l : Loading) (p : ℕ) (name key : List UInt8) : Prop where
  comm : ∃ c, l.sss.communities.get? p = some c ∧ c.HasUser name key
  num : l.num ≠ 0

section Lines

variable {l : Loading} {p : ℕ} {name key : List UInt8}

/-- Another user. -/
theorem Community.HasUser.addUser {c : Community} (h : c.HasUser name key) (key' : List UInt8) :
    (c.addUser key').HasUser name key := by
  obtain ⟨user, hmem, hkey⟩ := h.user
  exact ⟨h.isFederation, h.name, rfl, user, List.mem_append_left _ hmem, hkey⟩

/-- **One line**: a user that has been read stays. -/
theorem Loading.HasUser.line (h : l.HasUser p name key) (x : CommunityLine) :
    (l.line x).HasUser p name key := by
  obtain ⟨c, hget, hc⟩ := h.comm
  cases x with
  | rule rule => exact ⟨⟨c, hget, hc⟩, Nat.succ_ne_zero _⟩
  | user publicKey rule =>
    dsimp only [Loading.line]
    cases l.lastAddedComm with
    | none => exact ⟨⟨c, hget, hc⟩, Nat.succ_ne_zero _⟩
    | some q =>
      refine ⟨?_, h.num⟩
      show ∃ c, (l.sss.communities.modify q (·.addUser publicKey)).get? p = some c ∧ _
      rw [Table.get?_modify, hget]
      split_ifs
      · exact ⟨_, rfl, hc.addUser publicKey⟩
      · exact ⟨c, rfl, hc⟩
  | community name' net =>
    obtain ⟨net', hsss⟩ := l.addCommunity_sss name' net
    have hne : p ≠ l.sss.communities.next :=
      ne_of_lt (l.sss.communities.fresh _ (Table.get?_eq_some.mp hget))
    refine ⟨⟨c, ?_, hc⟩, Nat.succ_ne_zero _⟩
    rw [Loading.line, hsss]
    show (Table.modify _ _ _).get? p = _
    rw [Table.get?_modify, if_neg hne, Table.get?_add, if_neg hne, hget]

/-- Where users are added something has been read before. -/
theorem num_of_lastAddedComm (xs : List CommunityLine) {l : Loading}
    (h : l.lastAddedComm.isSome = true → l.num ≠ 0) :
    (xs.foldl Loading.line l).lastAddedComm.isSome = true →
      (xs.foldl Loading.line l).num ≠ 0 := by
  refine Loading.lines_invariant (I := fun l => l.lastAddedComm.isSome = true → l.num ≠ 0) ?_ xs h
  intro l x hl
  cases x with
  | rule rule => exact fun _ => Nat.succ_ne_zero _
  | user publicKey rule =>
    dsimp only [Loading.line]
    cases hlast : l.lastAddedComm with
    | none => exact fun _ => Nat.succ_ne_zero _
    | some q => exact fun _ => hl (by rw [hlast]; rfl)
  | community name net => exact fun _ => Nat.succ_ne_zero _

/-- **The line of a user** adds the user to the community whose name comes last. -/
theorem hasUser_line {inetAddr : List UInt8 → UInt32} {before : List (List UInt8)} {s : LineState}
    (h : Follows inetAddr before s l) (hnum : l.lastAddedComm.isSome = true → l.num ≠ 0)
    (hcomm : s.hasComm = true) (key : List UInt8) (rule : Rule) :
    ∃ p name, (l.line (.user key rule)).HasUser p name key ∧
      (communityNames inetAddr before).getLast? = some name := by
  have hsome := h.hasComm.symm.trans hcomm
  obtain ⟨p, hp⟩ := Option.isSome_iff_exists.mp hsome
  obtain ⟨c, hget, hfed, hname⟩ := h.nearest p hp
  have huser : (c.addUser key).HasUser c.name key :=
    ⟨hfed, rfl, rfl, ⟨key, [], ⟨[]⟩⟩, by simp [Community.addUser], rfl⟩
  refine ⟨p, c.name, ⟨⟨c.addUser key, ?_, huser⟩, ?_⟩, hname⟩
  · rw [Loading.line, hp]
    show (l.sss.communities.modify p _).get? p = _
    rw [Table.get?_modify, if_pos rfl, hget]
    rfl
  · rw [Loading.line, hp]
    exact hnum hsome

end Lines

/-- **A file with the line** loads the user into the community whose name comes last before it. -/
theorem loading_hasUser (w : World) (env : FileEnv) {username key : List UInt8}
    (h : UserName username) (hkey : key.length = privatePublicKeySize)
    (hbuffer : env.publicKey.length = privatePublicKeySize) {before : List (List UInt8)}
    (hcomm : (LineState.after env.inetAddr ⟨false, env.publicKey⟩ before).hasComm = true)
    (later : List (List UInt8)) :
    ∃ p name, (w.loadingOf env (before ++ userLine username key :: later)
        (before ++ userLine username key :: later)).HasUser p name key ∧
      (communityNames env.inetAddr before).getLast? = some name := by
  unfold World.loadingOf FileEnv.read
  generalize env.rules _ = rules
  rw [readLines_append, readLines, attachRules_append, List.foldl_append,
    readLine_userLine h hkey hcomm (length_publicKey_after hbuffer before), attachRules_cons,
    List.foldl_cons]
  have hstart := Follows.start env.inetAddr w.beforeLines.sss env.publicKey
  obtain ⟨hfollows, -⟩ := hstart.lines rules before
  rw [List.nil_append] at hfollows
  obtain ⟨p, name, huser, hname⟩ := hasUser_line hfollows
    (num_of_lastAddedComm _ fun hnone => by cases hnone) hcomm key noRule
  exact ⟨p, name, Loading.lines_invariant (I := (·.HasUser p name key))
    (fun _ x hl => hl.line x) _ huser, hname⟩

/-! ### The secrets of the users -/

/-- What `calculate_shared_secrets` does to a community. -/
def Community.withSecrets (secret : List UInt8 → List UInt8) (c : Community) : Community :=
  if c.isFederation then c
  else
    { c with
      allowedUsers := c.allowedUsers.map fun user =>
        { user with
          sharedSecret := secret user.publicKey
          sharedSecretCtx := speckInit (secret user.publicKey) } }

theorem calculateSharedSecrets_get? (sss : Sn) (secret : List UInt8 → List UInt8) (p : ℕ) :
    (sss.calculateSharedSecrets secret).communities.get? p =
      (sss.communities.get? p).map (Community.withSecrets secret) := by
  unfold Sn.calculateSharedSecrets
  exact Table.get?_mapValues _ _ _

/-- What the supernode has for the user with a key. -/
structure Community.Serves (c : Community) (name key secret : List UInt8) : Prop where
  name : c.name = name
  keys : c.keys =
    packetHeaderChangeDynamicKey (packetHeaderSetupKey c.community.toList) c.dynamicKey
  dynamicKey : c.dynamicKey.length = authChallengeSize
  user : ∀ token, slice token 0 privatePublicKeySize = key → ∃ user,
    c.findUser token = some user ∧ user.sharedSecret = secret ∧
      user.sharedSecretCtx = speckInit secret

section Secrets

variable {c : Community} {name key : List UInt8}

/-- Whoever has the key is found with the secret for the key. -/
theorem findUser_withSecrets (hfed : c.isFederation = false)
    (h : ∃ user ∈ c.allowedUsers, user.publicKey = key) (secret : List UInt8 → List UInt8)
    {token : List UInt8} (htoken : slice token 0 privatePublicKeySize = key) :
    ∃ user, (c.withSecrets secret).findUser token = some user ∧
      user.sharedSecret = secret key ∧ user.sharedSecretCtx = speckInit (secret key) := by
  obtain ⟨user₀, hmem, hkey⟩ := h
  let g : SnUser → SnUser := fun user =>
    { user with
      sharedSecret := secret user.publicKey
      sharedSecretCtx := speckInit (secret user.publicKey) }
  have hfind : (c.withSecrets secret).findUser token =
      (c.allowedUsers.map g).reverse.find? (·.publicKey == key) := by
    unfold Community.findUser Community.withSecrets
    rw [hfed, if_neg Bool.false_ne_true, htoken]
  have hsome : ((c.allowedUsers.map g).reverse.find? (·.publicKey == key)).isSome = true := by
    rw [List.find?_isSome]
    exact ⟨g user₀, List.mem_reverse.mpr (List.mem_map_of_mem hmem), beq_iff_eq.mpr hkey⟩
  obtain ⟨user, huser⟩ := Option.isSome_iff_exists.mp hsome
  have hpub : (user.publicKey == key) = true :=
    List.find?_some (p := fun user : SnUser => user.publicKey == key) huser
  obtain ⟨user₁, -, rfl⟩ :=
    List.mem_map.mp (List.mem_reverse.mp (List.mem_of_find?_eq_some huser))
  refine ⟨g user₁, hfind.trans huser, ?_⟩
  rw [← beq_iff_eq.mp hpub]
  exact ⟨rfl, rfl⟩

theorem length_calculateDynamicKey (keyTime : UInt32) (comm fed : CommunityName) :
    (calculateDynamicKey keyTime comm fed).length = authChallengeSize :=
  length_speck128Encrypt le_rfl _

/-- **A community with the user**, when the secrets and the dynamic keys have been computed, and the
secrets once more. -/
theorem Community.HasUser.serves (h : c.HasUser name key) (secret : List UInt8 → List UInt8)
    (keyTime : UInt32) (fed : CommunityName) :
    (((c.withSecrets secret).withDynamicKey keyTime fed).withSecrets secret).Serves name key
      (secret key) := by
  obtain ⟨user, hmem, hkey⟩ := h.user
  -- the user is still there with secrets
  obtain ⟨user', hmem', hkey'⟩ : ∃ user ∈ (c.withSecrets secret).allowedUsers,
      user.publicKey = key := by
    unfold Community.withSecrets
    rw [h.isFederation, if_neg Bool.false_ne_true]
    exact ⟨_, List.mem_map_of_mem hmem, hkey⟩
  have hfed : (c.withSecrets secret).isFederation = false := by
    unfold Community.withSecrets
    split_ifs <;> exact h.isFederation
  have hsame : (c.withSecrets secret).name = name ∧ (c.withSecrets secret).keys =
      packetHeaderSetupKey (c.withSecrets secret).community.toList := by
    unfold Community.withSecrets
    split_ifs <;> exact ⟨h.name, h.keys⟩
  generalize c.withSecrets secret = c at hmem' hfed hsame
  have husers : c.hasUsers = true := by
    rw [Community.hasUsers, List.isEmpty_eq_false_iff_exists_mem.mpr ⟨user', hmem'⟩]
    rfl
  have hkeyed : c.withDynamicKey keyTime fed = { c with
      dynamicKey := calculateDynamicKey keyTime c.community fed
      keys := packetHeaderChangeDynamicKey c.keys
        (calculateDynamicKey keyTime c.community fed) } := by
    unfold Community.withDynamicKey
    rw [hfed, husers, Bool.not_true, Bool.or_false, if_neg Bool.false_ne_true]
  rw [hkeyed]
  have hlen := length_calculateDynamicKey keyTime c.community fed
  have hfound := fun token (htoken : slice token 0 privatePublicKeySize = key) =>
    findUser_withSecrets
      (c := { c with
        dynamicKey := calculateDynamicKey keyTime c.community fed
        keys := packetHeaderChangeDynamicKey c.keys
          (calculateDynamicKey keyTime c.community fed) })
      hfed ⟨user', hmem', hkey'⟩ secret htoken
  refine ⟨?_, ?_, ?_, hfound⟩ <;>
    simp only [Community.withSecrets, hfed, if_neg Bool.false_ne_true]
  · exact hsame.1
  · rw [hsame.2]
  · exact hlen

end Secrets

/-! ### The start of the supernode -/

/-- The community file that an option names. -/
def SnOption.path? : SnOption → Option (List UInt8)
  | .communities path => some path
  | _ => none

/-- The community file behind the options: the last one that was given. -/
def communityPath (options : List SnOption) : Option (List UInt8) :=
  options.foldl (fun path option => option.path?.or path) none

theorem Startup.setOptions_communityFile {env : StartEnv} {options : List SnOption} {s s' : Startup}
    (h : options.foldlM (Startup.setOption env) s = some s') :
    s'.communityFile = options.foldl (fun path option => option.path?.or path) s.communityFile := by
  have hadd : ∀ (s : Startup) (socket : Sock),
      (s.addAnchor socket).communityFile = s.communityFile := by
    intro s socket
    unfold Startup.addAnchor
    split <;> rfl
  have hoption : ∀ {s s' : Startup} {option : SnOption}, s.setOption env option = some s' →
      s'.communityFile = option.path?.or s.communityFile := by
    intro s s' option hs
    cases option with
    | supernode arg =>
      unfold Startup.setOption at hs
      dsimp only at hs
      split_ifs at hs
      · obtain rfl := Option.some.inj hs
        exact hadd s _
      · obtain rfl := Option.some.inj hs
        exact hadd s _
    | autoIp netMin netMax bitlen =>
      unfold Startup.setOption at hs
      dsimp only at hs
      split_ifs at hs
      obtain rfl := Option.some.inj hs
      rfl
    | help => cases hs
    | _ =>
      obtain rfl := Option.some.inj hs
      rfl
  induction options generalizing s with
  | nil =>
    obtain rfl := Option.some.inj h
    rfl
  | cons option options ih =>
    rw [List.foldlM_cons] at h
    obtain ⟨s₁, hs₁, h⟩ := Option.bind_eq_some_iff.mp h
    rw [ih h, hoption hs₁]
    rfl

/-- The communities behind the file. -/
theorem World.loadCommunityText_communities {w : World} {env : FileEnv} {file : List UInt8}
    (h : (w.loadingOf env (fileLines file) (fileLines file)).num ≠ 0) :
    ∃ keyTime fed, ∀ p, (w.loadCommunityText env file).1.sss.communities.get? p =
      ((w.loadingOf env (fileLines file) (fileLines file)).sss.communities.get? p).map fun c =>
        (c.withSecrets env.secret).withDynamicKey keyTime fed := by
  let l := w.loadingOf env (fileLines file) (fileLines file)
  let sss := l.sss.calculateSharedSecrets env.secret
  have hload : (w.loadCommunityText env file).1 =
      { w.beforeLines with sss := { sss.calculateDynamicKeys with lockCommunities := true } } := by
    unfold World.loadingOf at h
    unfold World.loadCommunityText World.loadCommunityLines
    dsimp only
    rw [World.loadAllowedSnCommunity_eq]
    dsimp only
    rw [if_neg h]
    rfl
  refine ⟨sss.dynamicKeyTime, sss.federationName, fun p => ?_⟩
  rw [hload]
  show sss.calculateDynamicKeys.communities.get? p = _
  rw [Sn.calculateDynamicKeys_get?, calculateSharedSecrets_get?, Option.map_map]
  rfl

/-- The secrets are computed once more, and the sockets are opened. -/
theorem Startup.enterLoop_get? (env : StartEnv) (s : Startup) (sock : ℤ) (p : ℕ) :
    ∃ f : Table PeerInfo → Table PeerInfo, (s.enterLoop env sock).sss.communities.get? p =
      ((s.loadCommunities env).sss.communities.get? p).map fun c =>
        { c.withSecrets env.fileEnv.secret with
          edges := f (c.withSecrets env.fileEnv.secret).edges } := by
  let sss := (s.loadCommunities env).sss.calculateSharedSecrets env.fileEnv.secret
  let f : Table PeerInfo → Table PeerInfo :=
    (·.mapValues fun scan => { scan with socketFd := sock })
  have hget : (s.enterLoop env sock).sss.communities.get? p =
      (sss.communities.modify sss.federation fun c => { c with edges := f c.edges }).get? p := rfl
  have hsecrets : sss.communities.get? p = _ := calculateSharedSecrets_get? _ _ p
  rw [hget, Table.get?_modify, hsecrets]
  by_cases hp : p = sss.federation
  · refine ⟨f, ?_⟩
    rw [if_pos hp, Option.map_map]
    rfl
  · refine ⟨id, ?_⟩
    rw [if_neg hp]
    rfl

/-- **The supernode starts with the secret of the user**, in the community whose name comes last
before the line. -/
theorem snMain_serves {env : StartEnv} {options : List SnOption} {w : World}
    (hmain : snMain env options = some w) {username password before later : List UInt8}
    (hbuffer : env.fileEnv.publicKey.length = privatePublicKeySize) (husername : UserName username)
    (hfile : (communityPath options).bind env.files =
      some (before ++ keygen username password ++ later)) (hbefore : EndsLine before)
    (hcomm : (LineState.after env.fileEnv.inetAddr ⟨false, env.fileEnv.publicKey⟩
      (fileLines before)).hasComm = true) :
    ∃ p c name, w.sss.communities.get? p = some c ∧
      (communityNames env.fileEnv.inetAddr (fileLines before)).getLast? = some name ∧
      c.Serves name (generatePublicKey (userPrivateKey username password))
        (env.fileEnv.secret (generatePublicKey (userPrivateKey username password))) := by
  unfold snMain at hmain
  split at hmain
  · rename_i s sock hs _
    obtain rfl := Option.some.inj hmain
    have hpath := Startup.setOptions_communityFile hs
    have hload : s.loadCommunities env =
        (s.w.loadCommunityText env.fileEnv (before ++ keygen username password ++ later)).1 := by
      unfold Startup.loadCommunities
      rw [show s.communityFile = communityPath options from hpath, hfile]
    obtain ⟨p, name, huser, hname⟩ := loading_hasUser s.w env.fileEnv husername
      (length_generatePublicKey (userPrivateKey username password)) hbuffer hcomm (fileLines later)
    rw [← fileLines_keygen husername password hbefore later] at huser
    obtain ⟨c, hget, hc⟩ := huser.comm
    obtain ⟨keyTime, fed, hcomms⟩ := World.loadCommunityText_communities huser.num
    obtain ⟨f, hloop⟩ := s.enterLoop_get? env sock p
    rw [hload, hcomms, hget, Option.map_some, Option.map_some] at hloop
    have hserves := hc.serves env.fileEnv.secret keyTime fed
    exact ⟨p, _, name, hloop, hname, hserves.name, hserves.keys, hserves.dynamicKey, hserves.user⟩
  · cases hmain

/-! ### The exchange -/

/-- **The exchange** with a supernode that serves the public key of the edge: the supernode accepts
what the edge sends, and the answer gives the edge the keys of the community. -/
theorem Community.Serves.exchange {c : Community} {name key secret : List UInt8}
    (hc : c.Serves name key secret) {conf : EdgeConf} (h : conf.UserPassword secret)
    (hkey : slice conf.auth.token 0 privatePublicKeySize = key)
    (auth answer : Auth) (challenge : List.Vector UInt8 16) :
    let sent := conf.getLocalAuth auth challenge
    let returned := handleRemoteAuth sent.2 answer c
    returned.1 = true ∧ sent.1.handleRemoteAuth returned.2 =
      (true, { sent.1 with
        keys := packetHeaderChangeDynamicKey conf.keys c.dynamicKey }) := by
  obtain ⟨hup, hstored⟩ := h.sent auth challenge
  have hch : challenge.toList.length = 16 := challenge.2
  have htok : conf.auth.token.length = 48 := h.token
  have henc := length_speck128Encrypt hch.ge conf.sharedSecretCtx
  have hpub : (conf.auth.token.take privatePublicKeySize).length = privatePublicKeySize := by
    simp [htok, privatePublicKeySize]
  have hctx : (conf.getLocalAuth auth challenge).1.sharedSecretCtx = conf.sharedSecretCtx := by
    rw [hup.ctx, h.ctx]
  intro sent returned
  have hsent : sent = ({ conf with auth :=
        { conf.auth with
          token := conf.auth.token.take privatePublicKeySize ++ challenge.toList } },
      { conf.auth with
        token := conf.auth.token.take privatePublicKeySize ++
          speck128Encrypt challenge.toList conf.sharedSecretCtx }) :=
    h.getLocalAuth auth challenge
  -- the token that is sent begins with the public key
  have hslice : slice sent.2.token 0 privatePublicKeySize = key := by
    have hleft := slice_left (conf.auth.token.take privatePublicKeySize)
      (speck128Encrypt challenge.toList conf.sharedSecretCtx)
    have hall : 0 + privatePublicKeySize ≤ conf.auth.token.length := by
      rw [htok]
      decide
    rw [hpub] at hleft
    rw [hsent, ← hkey, slice_eq_take_drop hall, List.drop_zero]
    exact hleft
  obtain ⟨user, hfind, hsecret, huser⟩ := hc.user sent.2.token hslice
  have hscheme : sent.2.scheme = authUserPassword := by rw [hsent, h.scheme]
  have husers : c.hasUsers = true := by
    cases hnil : c.allowedUsers with
    | nil => simp [Community.findUser, hnil] at hfind
    | cons u us => simp [Community.hasUsers, hnil]
  have hreturned : returned = (true, answerUser sent.2 user c.dynamicKey) := by
    show handleRemoteAuth sent.2 answer c = _
    unfold handleRemoteAuth
    rw [hscheme, husers, hfind]
    simp [authUserPassword, authNone, authSimpleId]
  have hkeys : sent.1.keys = conf.keys := by rw [hsent]
  rw [hreturned, ← hkeys]
  refine ⟨rfl, hup.accepts hsecret (by rw [huser, hup.ctx]) hc.dynamicKey ?_ ?_⟩
  · rw [hsent]
    simp [htok, henc, hch, authPwTokenSize, privatePublicKeySize, authChallengeSize]
  · have hcut := slice_middle (z := []) hpub (henc.trans hch)
    rw [List.append_nil] at hcut
    rw [hstored, hctx, hsent]
    exact hcut

/-- The edge knows the public key of the federation with this name: from what `n2n-keygen` prints,
or because the name is the default one. -/
def FederationKeyKnown (name : List UInt8) (federationPublicKey : Option (List UInt8)) : Prop :=
  (∃ fed text, name = starName fed ∧ (cstr fed).length ≤ 17 ∧
    keygen (ascii "-F") fed = ascii "-P " ++ text ++ [0x0a] ∧ federationPublicKey = some text) ∨
  (name = defaultFederation ∧ federationPublicKey = none)

/-- The keys of an edge that knows the federation. -/
theorem FederationKeyKnown.keys {name : List UInt8} {text : Option (List UInt8)}
    (h : FederationKeyKnown name text) {username : List UInt8} (husername : UserName username)
    (password : List UInt8) :
    UserOptions.keys ⟨username, password, text⟩ =
      some (generatePublicKey (userPrivateKey username password),
        generateSharedSecret (generatePrivateKey (name.drop 1))
          (generatePublicKey (userPrivateKey username password))) := by
  have hlen : (cstr username).length ≤ 15 := husername.cstr.symm ▸ husername.length
  rcases h with ⟨fed, t, rfl, hfed, hprinted, rfl⟩ | ⟨rfl, rfl⟩
  · -- the supernode makes its key from the name that fits
    have hname : generatePrivateKey ((starName fed).drop 1) = generatePrivateKey fed := by
      have hdrop : (starName fed).drop 1 = cstr fed := by
        rw [starName, List.drop_take]
        exact List.take_of_length_le hfed
      have hagain : cstr (cstr fed) = cstr fed :=
        List.takeWhile_eq_self_iff.mpr fun c hc => List.mem_takeWhile_imp (p := (· != 0)) hc
      rw [hdrop, generatePrivateKey, hagain, generatePrivateKey]
    rw [keygen_federation] at hprinted
    have htext := List.append_cancel_left (List.append_cancel_right hprinted)
    rw [hname]
    exact UserOptions.keys_keygen hlen (.inl (by rw [htext]))
  · exact UserOptions.keys_keygen hlen (.inr ⟨rfl, rfl⟩)

/-- **From the password to the keys.**  If the community file has the line that `n2n-keygen` prints
for a user, then an edge that is started with the name, the password and the key of the federation
is accepted in the community whose name comes last before the line, and the answer gives it the
keys that the headers of the community are encrypted with. -/
theorem user_authenticates {env : StartEnv} {options : List SnOption} {w : World}
    {username password before later : List UInt8} {text : Option (List UInt8)}
    {communityName : CommunityName} {transopId : TransformId} {tmpKey : List UInt8}
    {conf : EdgeConf} (hmain : snMain env options = some w)
    (hsecret : env.fileEnv.secret =
      generateSharedSecret (generatePrivateKey ((env.finalName options).drop 1)))
    (hbuffer : env.fileEnv.publicKey.length = privatePublicKeySize) (husername : UserName username)
    (hfile : (communityPath options).bind env.files =
      some (before ++ keygen username password ++ later)) (hbefore : EndsLine before)
    (hcomm : (LineState.after env.fileEnv.inetAddr ⟨false, env.fileEnv.publicKey⟩
      (fileLines before)).hasComm = true)
    (hfed : FederationKeyKnown (env.finalName options) text)
    (hedge : (UserOptions.keys ⟨username, password, text⟩).bind
      (edgeInitKeys communityName transopId · tmpKey) = some conf) :
    ∃ p c, w.sss.communities.get? p = some c ∧
      (communityNames env.fileEnv.inetAddr (fileLines before)).getLast? = some c.name ∧
      ∀ (auth answer : Auth) (challenge : List.Vector UInt8 16),
        let sent := conf.getLocalAuth auth challenge
        let returned := handleRemoteAuth sent.2 answer c
        returned.1 = true ∧ ∃ conf', sent.1.handleRemoteAuth returned.2 = (true, conf') ∧
          (communityName = c.community → conf'.keys = c.keys) := by
  obtain ⟨p, c, name, hget, hname, hc⟩ :=
    snMain_serves hmain hbuffer husername hfile hbefore hcomm
  rw [hfed.keys husername, Option.bind_some] at hedge
  rw [hsecret] at hc
  obtain ⟨hup, htoken, hkeys⟩ := edgeInitKeys_userPassword (length_generatePublicKey _)
    (length_generateSharedSecret _ _) hedge
  refine ⟨p, c, hget, hname.trans (congrArg some hc.name.symm), fun auth answer challenge => ?_⟩
  obtain ⟨haccepted, hanswer⟩ := hc.exchange hup htoken auth answer challenge
  refine ⟨haccepted, _, hanswer, fun hcommunity => ?_⟩
  dsimp only
  rw [hkeys, hcommunity]
  exact hc.keys.symm

theorem length_meshMac : ([2, 0, 0, 0, 0, 5] : List UInt8).length = 6 := rfl

/-- A user of one community. -/
def bobStart : StartEnv where
  env := quietEnv
  federation := none
  packageVersion := ascii "3.1.1"
  token := List.replicate 16 7
  macAddr := ⟨[2, 0, 0, 0, 0, 5], length_meshMac⟩
  supernode2sock _ := (-1, Sock.zero)
  files _ := some (ascii "home" ++ [0x0a] ++ keygen (ascii "bob") (ascii "secret") ++ [])
  fileEnv :=
    { inetAddr := fun _ => 0
      publicKey := List.replicate 32 0
      cclBase := 0
      cclBehind := []
      compiled := []
      secret := generateSharedSecret (generatePrivateKey (ascii "mesh")) }
  sock := some 3

/-- The federation is not the default one. -/
def bobOptions : List SnOption :=
  [.communities (ascii "community.list"), .federation (ascii "mesh")]

theorem user_authenticates_bob :
    ∃ (w : World) (conf : EdgeConf) (p : ℕ) (c : Community),
      snMain bobStart bobOptions = some w ∧ w.sss.communities.get? p = some c ∧
      (handleRemoteAuth (conf.getLocalAuth Auth.zero (List.Vector.replicate 16 1)).2 Auth.zero
        c).1 = true := by
  have hsome : (snMain bobStart bobOptions).isSome = true := by decide +kernel
  obtain ⟨w, hmain⟩ := Option.isSome_iff_exists.mp hsome
  have hbob : UserName (ascii "bob") :=
    ⟨by decide +kernel, by decide +kernel, by decide +kernel, by decide +kernel⟩
  have hname : bobStart.finalName bobOptions = starName (ascii "mesh") := rfl
  have hfed : FederationKeyKnown (bobStart.finalName bobOptions)
      (some (keyText (generatePublicKey (generatePrivateKey (ascii "mesh"))))) :=
    .inl ⟨ascii "mesh", _, hname, by decide +kernel, keygen_federation _, rfl⟩
  obtain ⟨conf, hconf⟩ : ∃ conf, (UserOptions.keys ⟨ascii "bob", ascii "secret",
      some (keyText (generatePublicKey (generatePrivateKey (ascii "mesh"))))⟩).bind
        (edgeInitKeys (commInitName (ascii "home")) .speck · (List.replicate 16 3)) =
      some conf := by
    rw [hfed.keys hbob]
    exact ⟨_, rfl⟩
  have hsecret : bobStart.fileEnv.secret =
      generateSharedSecret (generatePrivateKey ((bobStart.finalName bobOptions).drop 1)) := by
    have hdrop : (bobStart.finalName bobOptions).drop 1 = ascii "mesh" := by decide +kernel
    rw [hdrop]
    rfl
  have hline : EndsLine (ascii "home" ++ [0x0a]) := by
    unfold EndsLine
    decide +kernel
  obtain ⟨p, c, hget, -, haccepted⟩ := user_authenticates hmain hsecret (by decide) hbob rfl hline
    (by decide +kernel) hfed hconf
  exact ⟨w, conf, p, c, hmain, hget, (haccepted _ _ _).1⟩

end N2n
