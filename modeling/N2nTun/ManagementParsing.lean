import Mathlib.Data.Vector.Basic
import N2nTun.Lib.Scan
import N2nTun.SnManagement

/-!
# How the line of a management request is taken apart

`mgmt_req_init2` of `management.c` on the memory of the line: up to seven calls of `strtok` on two
strings, the line and the options in it, share the one variable in which `strtok` remembers where
it stands, and a string function that is given `NULL` ends the program.

## Main definitions

* `LineRun` — what the function works with: the memory, the request with its pointers, and what has
  been sent.
* `LineRun.mgmtReqInit2` — the function; `none` if a string function gets `NULL`.
* `cmdlinebuf` — the copy of a datagram that both programs parse.
* `RequestParsed` — what the callers rely on.

## Main results

* `LineRun.refines` — **the function comes to what `N2n.mgmtReqInit2` says** of the bytes of the
  line.
* `requestParsed_iff` — **it does what the callers rely on, unless the options of the line consist
  of colons.**
-/

namespace N2n

open Bytes Tokens

/-! ### The function -/

/-- `mgmt_req_t`, whose `argv0` and `argv` point into the line. -/
structure LineReq where
  type : MgmtType
  argv0 : Option ℕ
  argv : Option ℕ
  tag : List.Vector UInt8 10
  senderSock : Sock

/-- What `mgmt_req_init2` works with. -/
structure LineRun where
  scan : Scan
  req : LineReq
  sent : List MgmtReply

namespace LineRun

variable (r : LineRun)

/-- The string that a pointer into the line points to. -/
def str (p : ℕ) : List UInt8 := strAt r.scan.mem p

/-- A call of `strtok`. -/
def strtok (s : Option ℕ) (delims : List UInt8) : LineRun × Option ℕ :=
  ({ r with scan := (r.scan.strtok s delims).1 }, (r.scan.strtok s delims).2)

/-- `mgmt_error`. -/
def mgmtError (msg : String) : LineRun :=
  { r with sent := r.sent ++
      [.str r.req.senderSock (cstr r.req.tag.toList) "error" "error" (ascii msg)] }

/-- The tag "-1", until there is one. -/
def initTag (tag : List.Vector UInt8 10) : List.Vector UInt8 10 :=
  ⟨0x2d :: 0x31 :: 0 :: tag.toList.drop 3, by simp⟩

/-- `strncpy` to the tag, and the zero behind it. -/
def copyTag (tagp : List UInt8) : List.Vector UInt8 10 :=
  ⟨(tagp.take 9 ++ List.replicate (9 - tagp.length) 0) ++ [0], by simp; omega⟩

/-- The password, if the flags announce one. -/
def authToken : LineRun × Option ℕ :=
  let (r, flagstr) := r.strtok none optionDelims
  let flags : Int32 :=
    match flagstr with
    | some flagstr => toInt (strtoul (r.str flagstr) 16)
    | none => 0
  if flags &&& 1 ≠ 0 then r.strtok none optionDelims else (r, none)

/-- The second half of `mgmt_req_init2`, which takes the options apart.  The copy of the tag does
not look whether there is one. -/
def splitOptions (options : ℕ) : Option (LineRun × Option ℕ) :=
  let (r, tagp) := r.strtok (some options) optionDelims
  match tagp with
  | none => none
  | some tagp => some { r with req := { r.req with tag := copyTag (r.str tagp) } }.authToken

/-- What `mgmt_req_init2` does when there is a command: the rest of the line, the options, and the
authorisation. -/
def initRest (passwordHash : UInt64) (options : ℕ) : Option (Bool × LineRun) :=
  let (r, argv) := r.strtok none (ascii "\r\n")
  let r := { r with req := { r.req with argv := argv } }
  match r.splitOptions options with
  | none => none
  | some (r, auth) =>
    if mgmtAuth passwordHash r.req.type (auth.map r.str) then some (true, r)
    else some (false, r.mgmtError "badauth")

/-- `mgmt_req_init2`, with the value that it returns; `none` if a string function gets `NULL`. -/
def mgmtReqInit2 (passwordHash : UInt64) (cmdline : ℕ) : Option (Bool × LineRun) :=
  let r := { r with req := { r.req with tag := initTag r.req.tag } }
  let (r, typechar) := r.strtok (some cmdline) lineDelims
  match typechar with
  | none => some (false, r.mgmtError "notype")
  | some typechar =>
    match mgmtType (r.str typechar) with
    | none => some (false, r.mgmtError "badtype")
    | some type =>
      let r := { r with req := { r.req with type := type } }
      let (r, options) := r.strtok none lineDelims
      match options with
      | none => some (false, r.mgmtError "nooptions")
      | some options =>
        let (r, argv0) := r.strtok none lineDelims
        let r := { r with req := { r.req with argv0 := argv0 } }
        match argv0 with
        | none => some (false, r.mgmtError "nocmd")
        | some _ => r.initRest passwordHash options

/-! ### The tag -/

theorem zero_mem_copyTag (tagp : List UInt8) : (0 : UInt8) ∈ (copyTag tagp).toList := by
  simp [copyTag]

theorem cstr_initTag (tag : List.Vector UInt8 10) : cstr (initTag tag).toList = ascii "-1" := by
  unfold initTag cstr
  simp only [List.Vector.toList_mk, List.takeWhile_cons]
  rfl

/-- The tag is the start of the token. -/
theorem cstr_copyTag {tagp : List UInt8} (h : ∀ b ∈ tagp, b ≠ 0) :
    cstr (copyTag tagp).toList = tagp.take 9 := by
  unfold copyTag cstr
  have htag : ∀ b ∈ tagp.take 9, (b != 0) = true := fun b hb =>
    bne_iff_ne.mpr (h b (List.mem_of_mem_take hb))
  simp only [List.Vector.toList_mk, List.append_assoc]
  rw [List.takeWhile_append_of_pos htag]
  cases 9 - tagp.length <;> simp [List.replicate_succ]

theorem ne_zero_of_mem_strAt {mem : List UInt8} {p : ℕ} {b : UInt8} (h : b ∈ strAt mem p) :
    b ≠ 0 := by
  unfold strAt at h
  simpa using List.mem_takeWhile_imp h

/-! ### What the calls come to -/

section

variable {s : Option ℕ} {delims token rest : List UInt8}

theorem strtok_none (h : Tokens.strtok delims (r.str (s.getD r.scan.cursor)) = none) :
    ∃ r', r.strtok s delims = (r', none) ∧ r'.req = r.req ∧ r'.sent = r.sent ∧
      ∀ q, r'.str q = r.str q := by
  obtain ⟨hnone, hmem⟩ := r.scan.strtok_none h
  refine ⟨{ r with scan := (r.scan.strtok s delims).1 }, ?_, rfl, rfl, fun q => ?_⟩
  · unfold strtok
    rw [hnone]
  · unfold str
    rw [hmem]

theorem strtok_some
    (h : Tokens.strtok delims (r.str (s.getD r.scan.cursor)) = some (token, rest)) :
    ∃ r' p, r.strtok s delims = (r', some p) ∧ r'.req = r.req ∧ r'.sent = r.sent ∧
      r.scan.Found r'.scan (s.getD r.scan.cursor) (r.str (s.getD r.scan.cursor)) token rest p := by
  obtain ⟨p, hp, hfound⟩ := r.scan.strtok_some h
  refine ⟨{ r with scan := (r.scan.strtok s delims).1 }, p, ?_, rfl, rfl, hfound⟩
  unfold strtok
  rw [hp]

/-- A call whose token may be missing. -/
theorem strtok_map (s : Option ℕ) (delims : List UInt8) :
    ∃ r' p, r.strtok s delims = (r', p) ∧
      p.map r'.str = (Tokens.strtok delims (r.str (s.getD r.scan.cursor))).map Prod.fst ∧
      r'.req = r.req ∧ r'.sent = r.sent ∧ (∀ q ∈ p, s.getD r.scan.cursor ≤ q) ∧
      (∀ q, q + (r.str q).length ≤ s.getD r.scan.cursor → r'.str q = r.str q) ∧
      ∀ q, s.getD r.scan.cursor + (r.str (s.getD r.scan.cursor)).length < q →
        r'.str q = r.str q := by
  cases htoken : Tokens.strtok delims (r.str (s.getD r.scan.cursor)) with
  | none =>
    obtain ⟨r', hcall, hreq, hsent, hkeep⟩ := r.strtok_none htoken
    exact ⟨r', none, hcall, rfl, hreq, hsent, by simp, fun q _ => hkeep q, fun q _ => hkeep q⟩
  | some t =>
    obtain ⟨r', p, hcall, hreq, hsent, hfound⟩ := r.strtok_some htoken
    refine ⟨r', some p, hcall, congrArg some hfound.token_eq, hreq, hsent, fun q hq => ?_,
      fun q => hfound.keeps_before, fun q => hfound.keeps_after⟩
    cases hq
    exact hfound.start_le

end

theorem splitOptions_none {options : ℕ} (h : N2n.splitOptions (r.str options) = none) :
    r.splitOptions options = none := by
  have htag : Tokens.strtok optionDelims (r.str options) = none := by
    rw [strtok_eq_none_iff, ← splitOptions_eq_none_iff]
    exact h
  obtain ⟨r', hcall, -, -, -⟩ := r.strtok_none (s := some options) htag
  unfold splitOptions
  rw [hcall]

/-- The password behind the tag. -/
def optionAuth (rest : List UInt8) : Option (List UInt8) :=
  let (flags, rest) :=
    match Tokens.strtok optionDelims rest with
    | some (flagstr, rest) => (toInt (strtoul flagstr 16), rest)
    | none => (0, rest)
  if flags &&& 1 ≠ 0 then (Tokens.strtok optionDelims rest).map Prod.fst else none

theorem splitOptions_eq (options : List UInt8) :
    N2n.splitOptions options =
      (Tokens.strtok optionDelims options).map fun t => (t.1.take 9, optionAuth t.2) := by
  unfold N2n.splitOptions
  cases Tokens.strtok optionDelims options <;> rfl

/-- The password is the one behind the tag, and what lies behind the options is kept. -/
theorem authToken_eq :
    ∃ r' authp, r.authToken = (r', authp) ∧
      authp.map r'.str = optionAuth (r.str r.scan.cursor) ∧ r'.req = r.req ∧ r'.sent = r.sent ∧
      ∀ q, r.scan.cursor + (r.str r.scan.cursor).length < q → r'.str q = r.str q := by
  unfold authToken optionAuth
  cases hflags : Tokens.strtok optionDelims (r.str r.scan.cursor) with
  | none =>
    obtain ⟨r₁, hcall₁, hreq₁, hsent₁, hkeep₁⟩ := r.strtok_none (s := none) hflags
    rw [hcall₁]
    dsimp only
    rw [if_neg (by decide), if_neg (by decide)]
    exact ⟨r₁, none, rfl, rfl, hreq₁, hsent₁, fun q _ => hkeep₁ q⟩
  | some t =>
    obtain ⟨flagstr, rest⟩ := t
    obtain ⟨r₁, p₁, hcall₁, hreq₁, hsent₁, hfound₁⟩ := r.strtok_some (s := none) hflags
    obtain rfl : r₁.str p₁ = flagstr := hfound₁.token_eq
    have hrest : r₁.str r₁.scan.cursor = rest := hfound₁.rest_eq
    have hkeep₁ : ∀ q, r.scan.cursor + (r.str r.scan.cursor).length < q → r₁.str q = r.str q :=
      fun q hq => hfound₁.keeps_after hq
    rw [hcall₁]
    dsimp only
    by_cases hone : toInt (strtoul (r₁.str p₁) 16) &&& 1 ≠ 0
    · rw [if_pos hone, if_pos hone]
      obtain ⟨r₂, authp, hcall₂, hauth, hreq₂, hsent₂, -, -, hkeep₂⟩ :=
        r₁.strtok_map none optionDelims
      rw [Option.getD_none, hrest] at hauth hkeep₂
      refine ⟨r₂, authp, hcall₂, hauth, hreq₂.trans hreq₁, hsent₂.trans hsent₁, fun q hq => ?_⟩
      -- the options end where they did
      have hend := hfound₁.cursor_add.trans_lt hq
      exact (hkeep₂ q hend).trans (hkeep₁ q hq)
    · rw [if_neg hone, if_neg hone]
      exact ⟨r₁, none, rfl, rfl, hreq₁, hsent₁, hkeep₁⟩

/-- The tag and the password are those of the options, and what lies behind them is kept. -/
theorem splitOptions_some {options : ℕ} {tag : List UInt8} {auth : Option (List UInt8)}
    (h : N2n.splitOptions (r.str options) = some (tag, auth)) :
    ∃ r' authp, r.splitOptions options = some (r', authp) ∧ authp.map r'.str = auth ∧
      r'.req = { r.req with tag := r'.req.tag } ∧ cstr r'.req.tag.toList = tag ∧
      0 ∈ r'.req.tag.toList ∧ r'.sent = r.sent ∧
      ∀ q, options + (r.str options).length < q → r'.str q = r.str q := by
  rw [splitOptions_eq] at h
  obtain ⟨⟨tagp, rest⟩, htag, hparts⟩ := Option.map_eq_some_iff.mp h
  cases hparts
  obtain ⟨r₁, p₁, hcall₁, hreq₁, hsent₁, hfound₁⟩ := r.strtok_some (s := some options) htag
  have htagp : r₁.str p₁ = tagp := hfound₁.token_eq
  have hrest : r₁.str r₁.scan.cursor = rest := hfound₁.rest_eq
  have hzero : ∀ b ∈ tagp, b ≠ 0 := fun b hb => by
    rw [← htagp] at hb
    exact ne_zero_of_mem_strAt hb
  unfold splitOptions
  rw [hcall₁]
  dsimp only
  rw [htagp]
  obtain ⟨r₂, authp, hcall₂, hauth, hreq₂, hsent₂, hkeep₂⟩ :=
    { r₁ with req := { r₁.req with tag := copyTag tagp } }.authToken_eq
  change authp.map r₂.str = optionAuth (r₁.str r₁.scan.cursor) at hauth
  rw [hrest] at hauth
  rw [hcall₂]
  refine ⟨r₂, authp, rfl, hauth, ?_, ?_, ?_, hsent₂.trans hsent₁, fun q hq => ?_⟩
  · rw [hreq₂, hreq₁]
  · rw [hreq₂]
    exact cstr_copyTag hzero
  · rw [hreq₂]
    exact zero_mem_copyTag tagp
  · -- the options end where they did
    have hend := hfound₁.cursor_add.trans_lt hq
    rw [← hrest] at hend
    exact (hkeep₂ q hend).trans (hfound₁.keeps_after hq)

/-- The request, with the strings that it points to. -/
def request : MgmtReq :=
  ⟨r.req.type, (r.req.argv0.map r.str).getD [], r.req.argv.map r.str, cstr r.req.tag.toList,
    r.req.senderSock⟩

end LineRun

/-! ### What the function comes to -/

/-- What a call comes to is what is said of the bytes of the line. -/
def LineRun.Refines (r : LineRun) : MgmtInit → Option (Bool × LineRun) → Prop
  | .undefined, run => run = none
  | .failed reply, run => ∃ r', run = some (false, r') ∧ r'.sent = r.sent ++ [reply]
  | .ready req, run => ∃ r', run = some (true, r') ∧ r'.sent = r.sent ∧ r'.request = req ∧
      r'.req.argv0.isSome ∧ 0 ∈ r'.req.tag.toList

namespace LineRun

/-- Nothing has been sent, and an error would go to the sender, with the tag. -/
structure Quiet (r r' : LineRun) (tag : List UInt8) : Prop where
  sent_eq : r'.sent = r.sent
  sock_eq : r'.req.senderSock = r.req.senderSock
  tag_eq : cstr r'.req.tag.toList = tag

theorem Quiet.next {r r' r'' : LineRun} {tag : List UInt8} (h : Quiet r r' tag)
    (hreq : r''.req = r'.req) (hsent : r''.sent = r'.sent) : Quiet r r'' tag := by
  refine ⟨hsent.trans h.sent_eq, ?_, ?_⟩
  · rw [hreq, h.sock_eq]
  · rw [hreq, h.tag_eq]

/-- The one error reply. -/
theorem Quiet.refines_failed {r r' : LineRun} {tag : List UInt8} (h : Quiet r r' tag)
    (msg : String) :
    r.Refines (.failed (.str r.req.senderSock tag "error" "error" (ascii msg)))
      (some (false, r'.mgmtError msg)) := by
  refine ⟨_, rfl, ?_⟩
  unfold mgmtError
  rw [h.sent_eq, h.sock_eq, h.tag_eq]

/-- The rest of the line keeps the options and the command, and the options keep what lies behind
them. -/
theorem initRest_refines {r r' : LineRun} {type : MgmtType} {tag options argv0 rest : List UInt8}
    {p q : ℕ} (hquiet : Quiet r r' tag) (htype : r'.req.type = type)
    (hoptions : r'.str p = options) (hargv0 : r'.str q = argv0)
    (hrest : r'.str r'.scan.cursor = rest) (hq : r'.req.argv0 = some q)
    (hpq : p + options.length < q) (hcursor : q + argv0.length ≤ r'.scan.cursor)
    (passwordHash : UInt64) :
    r.Refines
      (match N2n.splitOptions options with
        | none => .undefined
        | some (tag, auth) =>
          let argv := (Tokens.strtok (ascii "\r\n") rest).map Prod.fst
          let req : MgmtReq := ⟨type, argv0, argv, tag, r.req.senderSock⟩
          if mgmtAuth passwordHash type auth then .ready req
          else .failed (req.error "badauth"))
      (r'.initRest passwordHash p) := by
  obtain ⟨r₁, argv, hcall₁, hargv, hreq₁, hsent₁, hle₁, hkeep₁, -⟩ :=
    r'.strtok_map none (ascii "\r\n")
  rw [Option.getD_none] at hargv hle₁ hkeep₁
  rw [hrest] at hargv
  unfold initRest
  rw [hcall₁]
  dsimp only
  rw [← hargv]
  generalize hr₂ : { r₁ with req := { r₁.req with argv := argv } } = r₂
  have hstr₂ : r₂.str = r₁.str := by
    rw [← hr₂]
    rfl
  have hreq₂ : r₂.req = { r'.req with argv := argv } := by
    rw [← hr₂, ← hreq₁]
  have hsent₂ : r₂.sent = r.sent := by
    rw [← hr₂, ← hquiet.sent_eq, ← hsent₁]
  have hoptions₂ : r₂.str p = options := by
    rw [hstr₂, hkeep₁ p (by rw [hoptions]; omega), hoptions]
  have hargv0₂ : r₂.str q = argv0 := by
    rw [hstr₂, hkeep₁ q (by rw [hargv0]; omega), hargv0]
  rw [← hstr₂, ← hoptions₂]
  cases hsplit : N2n.splitOptions (r₂.str p) with
  | none =>
    rw [r₂.splitOptions_none hsplit]
    rfl
  | some s =>
    obtain ⟨tag', auth⟩ := s
    obtain ⟨r₃, authp, hcall₃, hauth, hreq₃, htag₃, hzero₃, hsent₃, hkeep₃⟩ :=
      r₂.splitOptions_some hsplit
    rw [hoptions₂] at hkeep₃
    have hargv0₃ : r₃.str q = argv0 := (hkeep₃ q hpq).trans hargv0₂
    have hargv₃ : argv.map r₃.str = argv.map r₂.str := by
      refine Option.map_congr fun a ha => hkeep₃ a ?_
      have := hle₁ a ha
      omega
    have hreq : r₃.req = ⟨type, some q, argv, r₃.req.tag, r.req.senderSock⟩ := by
      rw [hreq₃, hreq₂, ← htype, ← hq, ← hquiet.sock_eq]
    rw [hcall₃]
    dsimp only
    rw [hauth, hreq]
    split_ifs with hok
    · refine ⟨r₃, rfl, hsent₃.trans hsent₂, ?_, by rw [hreq]; rfl, hzero₃⟩
      unfold request
      rw [htag₃, hreq]
      simp only [Option.map_some, Option.getD_some, hargv0₃, hargv₃]
    · have hquiet₃ : Quiet r r₃ tag' := ⟨hsent₃.trans hsent₂, by rw [hreq], htag₃⟩
      exact hquiet₃.refines_failed "badauth"

/-- **The function comes to what is said of the bytes of the line.** -/
theorem refines (r : LineRun) (passwordHash : UInt64) (cmdline : ℕ) :
    r.Refines (N2n.mgmtReqInit2 passwordHash (.from r.req.senderSock) (r.str cmdline))
      (r.mgmtReqInit2 passwordHash cmdline) := by
  unfold N2n.mgmtReqInit2 mgmtReqInit2
  generalize hr₀ : { r with req := { r.req with tag := initTag r.req.tag } } = r₀
  have hstr₀ : r.str = r₀.str := by
    rw [← hr₀]
    rfl
  have hquiet₀ : Quiet r r₀ (ascii "-1") := by
    rw [← hr₀]
    exact ⟨rfl, rfl, cstr_initTag r.req.tag⟩
  rw [hstr₀]
  dsimp only
  -- the type
  cases htype : Tokens.strtok lineDelims (r₀.str cmdline) with
  | none =>
    obtain ⟨r₁, hcall₁, hreq₁, hsent₁, -⟩ := r₀.strtok_none (s := some cmdline) htype
    rw [hcall₁]
    exact (hquiet₀.next hreq₁ hsent₁).refines_failed "notype"
  | some t =>
    obtain ⟨typechar, rest₁⟩ := t
    obtain ⟨r₁, p₁, hcall₁, hreq₁, hsent₁, hfound₁⟩ := r₀.strtok_some (s := some cmdline) htype
    have hquiet₁ := hquiet₀.next hreq₁ hsent₁
    have hchar : r₁.str p₁ = typechar := hfound₁.token_eq
    have hrest₁ : r₁.str r₁.scan.cursor = rest₁ := hfound₁.rest_eq
    rw [hcall₁]
    dsimp only
    rw [hchar]
    cases mgmtType typechar with
    | none => exact hquiet₁.refines_failed "badtype"
    | some type =>
      dsimp only
      -- the options
      generalize hr₁ : { r₁ with req := { r₁.req with type := type } } = r₁'
      have hquiet₁' : Quiet r r₁' (ascii "-1") := by
        rw [← hr₁]
        exact ⟨hquiet₁.sent_eq, hquiet₁.sock_eq, hquiet₁.tag_eq⟩
      have hrest₁' : r₁'.str r₁'.scan.cursor = rest₁ := by
        rw [← hr₁]
        exact hrest₁
      rw [← hrest₁']
      cases hoptions : Tokens.strtok lineDelims (r₁'.str r₁'.scan.cursor) with
      | none =>
        obtain ⟨r₂, hcall₂, hreq₂, hsent₂, -⟩ := r₁'.strtok_none (s := none) hoptions
        rw [hcall₂]
        exact (hquiet₁'.next hreq₂ hsent₂).refines_failed "nooptions"
      | some t =>
        obtain ⟨options, rest₂⟩ := t
        obtain ⟨r₂, p₂, hcall₂, hreq₂, hsent₂, hfound₂⟩ := r₁'.strtok_some (s := none) hoptions
        have hquiet₂ := hquiet₁'.next hreq₂ hsent₂
        have hopt₂ : r₂.str p₂ = options := hfound₂.token_eq
        have hrest₂ : r₂.str r₂.scan.cursor = rest₂ := hfound₂.rest_eq
        rw [hcall₂]
        dsimp only
        -- the command
        rw [← hrest₂]
        cases hcmd : Tokens.strtok lineDelims (r₂.str r₂.scan.cursor) with
        | none =>
          obtain ⟨r₃, hcall₃, hreq₃, hsent₃, -⟩ := r₂.strtok_none (s := none) hcmd
          rw [hcall₃]
          have hquiet₃ := hquiet₂.next hreq₃ hsent₃
          have hquiet : Quiet r { r₃ with req := { r₃.req with argv0 := none } } (ascii "-1") :=
            ⟨hquiet₃.sent_eq, hquiet₃.sock_eq, hquiet₃.tag_eq⟩
          exact hquiet.refines_failed "nocmd"
        | some t =>
          obtain ⟨argv0, rest₃⟩ := t
          obtain ⟨r₃, p₃, hcall₃, hreq₃, hsent₃, hfound₃⟩ := r₂.strtok_some (s := none) hcmd
          have hquiet₃ := hquiet₂.next hreq₃ hsent₃
          have hcmd₃ : r₃.str p₃ = argv0 := hfound₃.token_eq
          have hopt₃ : r₃.str p₂ = options := by
            rw [← hopt₂]
            refine hfound₃.keeps_before ?_
            rw [hfound₂.token_eq]
            exact hfound₂.le_cursor
          have htype₃ : r₃.req.type = type := by
            rw [hreq₃, hreq₂, ← hr₁]
          have hpq : p₂ + options.length < p₃ := by
            have hne : rest₂ ≠ [] := by
              rw [← hrest₂]
              exact strtok_ne_nil hcmd
            exact (hfound₂.lt_cursor hne).trans_le hfound₃.start_le
          rw [hcall₃]
          have hquiet : Quiet r { r₃ with req := { r₃.req with argv0 := some p₃ } } (ascii "-1") :=
            ⟨hquiet₃.sent_eq, hquiet₃.sock_eq, hquiet₃.tag_eq⟩
          exact initRest_refines hquiet htype₃ hopt₃ hcmd₃ hfound₃.rest_eq rfl hpq
            hfound₃.le_cursor passwordHash

end LineRun

/-! ### What the callers rely on -/

theorem splitOptions_length_le {options tag : List UInt8} {auth : Option (List UInt8)}
    (h : N2n.splitOptions options = some (tag, auth)) : tag.length ≤ 9 := by
  rw [LineRun.splitOptions_eq] at h
  obtain ⟨t, -, hparts⟩ := Option.map_eq_some_iff.mp h
  cases hparts
  exact List.length_take_le _ _

/-- The texts of the errors. -/
def mgmtInitErrors : List String := ["notype", "badtype", "nooptions", "nocmd", "badauth"]

/-- An error is reported with the tag "-1", or with the one of the options. -/
theorem mgmtReqInit2_failed {passwordHash : UInt64} {req : MgmtReq} {cmdline : List UInt8}
    {reply : MgmtReply} (h : mgmtReqInit2 passwordHash req cmdline = .failed reply) :
    ∃ tag, tag.length ≤ 9 ∧ ∃ msg ∈ mgmtInitErrors,
      reply = .str req.senderSock tag "error" "error" (ascii msg) := by
  have hinit : (ascii "-1").length ≤ 9 := by decide
  unfold mgmtReqInit2 at h
  dsimp only at h
  split at h
  · cases h
    exact ⟨_, hinit, "notype", by decide, rfl⟩
  · split at h
    · cases h
      exact ⟨_, hinit, "badtype", by decide, rfl⟩
    · split at h
      · cases h
        exact ⟨_, hinit, "nooptions", by decide, rfl⟩
      · split at h
        · cases h
          exact ⟨_, hinit, "nocmd", by decide, rfl⟩
        · split at h
          · cases h
          · next hsplit =>
            split_ifs at h
            cases h
            exact ⟨_, splitOptions_length_le hsplit, "badauth", by decide, rfl⟩

/-- The parts of a request are those of its line, and they are authorised. -/
theorem mgmtReqInit2_parts {passwordHash : UInt64} {req req' : MgmtReq} {cmdline : List UInt8}
    (h : mgmtReqInit2 passwordHash req cmdline = .ready req') :
    lineType cmdline = some req'.type ∧ lineCommand cmdline = some req'.argv0 ∧
      mgmtAuth passwordHash req'.type (linePassword cmdline) = true := by
  unfold mgmtReqInit2 at h
  dsimp only at h
  unfold linePassword lineType lineCommand lineOptions
  split at h
  · cases h
  · next typechar rest₁ htype =>
    rw [htype]
    dsimp only [Option.bind_some]
    split at h
    · cases h
    · next type hchar =>
      split at h
      · cases h
      · next options rest₂ hoptions =>
        rw [hoptions]
        dsimp only [Option.bind_some, Option.map_some]
        split at h
        · cases h
        · next argv0 rest₃ hcmd =>
          rw [hcmd]
          split at h
          · cases h
          · next tag auth hsplit =>
            rw [hsplit]
            split_ifs at h with hauth
            cases h
            exact ⟨hchar, rfl, hauth⟩

/-- What the callers rely on when `mgmt_req_init2` has been called. -/
def LineParsed (passwordHash : UInt64) (sender : Sock) (line : List UInt8) :
    Option (Bool × LineRun) → Prop
  -- a string function was given `NULL`
  | none => False
  | some (false, r) =>
    ∃ tag, ∃ msg ∈ mgmtInitErrors, r.sent = [.str sender tag "error" "error" (ascii msg)]
  | some (true, r) =>
    r.sent = [] ∧ 0 ∈ r.req.tag.toList ∧ r.req.argv0.isSome ∧
      lineType line = some r.request.type ∧ lineCommand line = some r.request.argv0 ∧
      mgmtAuth passwordHash r.request.type (linePassword line) = true

/-- `cmdlinebuf`, to which both programs copy the line of a datagram. -/
def cmdlinebuf (udpBuf : List UInt8) : List UInt8 :=
  ((cstr udpBuf).take 79 ++ List.replicate (79 - (cstr udpBuf).length) 0) ++ [0]

/-- After `true` the handlers of both programs are entered, with the request, and after `false`
neither program does anything more. -/
def HandlersFollow (σ : Type*) (passwordHash : UInt64) (sender : Sock) (udpBuf : List UInt8)
    (run : Option (Bool × LineRun)) : Prop :=
  (∀ s : EdgeMgmt σ, s.handleMgmtJson passwordHash sender udpBuf =
    run.map fun t => if t.1 then s.handleReq t.2.request else (s, t.2.sent)) ∧
  ∀ (s : SnMgmt) (file : Option CommunityFile),
    s.handleMgmtJson file passwordHash sender udpBuf =
      run.map fun t => if t.1 then s.handleReq file t.2.request else (s, t.2.sent)

/-- The parsing of a request: `mgmt_req_init2` on a line in memory, and the programs that go on
with what it returns when the line is the one of a datagram. -/
structure RequestParsed (σ : Type*) (passwordHash : UInt64) (req : LineReq) (s : Scan)
    (cmdline : ℕ) : Prop where
  parsed : LineParsed passwordHash req.senderSock (strAt s.mem cmdline)
    ((LineRun.mk s req []).mgmtReqInit2 passwordHash cmdline)
  handlers : ∀ udpBuf, s.mem = cmdlinebuf udpBuf → cmdline = 0 →
    HandlersFollow σ passwordHash req.senderSock udpBuf
      ((LineRun.mk s req []).mgmtReqInit2 passwordHash cmdline)

theorem strAt_cmdlinebuf (udpBuf : List UInt8) :
    strAt (cmdlinebuf udpBuf) 0 = cmdlineOf udpBuf := by
  unfold cmdlinebuf cmdlineOf strAt
  have hline : ∀ b ∈ (cstr udpBuf).take 79, (b != 0) = true := fun b hb => by
    have hb' := List.mem_of_mem_take hb
    unfold cstr at hb'
    simpa using List.mem_takeWhile_imp hb'
  rw [List.drop_zero, List.append_assoc, List.takeWhile_append_of_pos hline]
  cases 79 - (cstr udpBuf).length <;> simp [List.replicate_succ]

section

variable {passwordHash : UInt64} {req : LineReq} {s : Scan} {cmdline : ℕ}

theorem mgmtReqInit2_parsed
    (h : mgmtReqInit2 passwordHash (.from req.senderSock) (strAt s.mem cmdline) ≠ .undefined) :
    LineParsed passwordHash req.senderSock (strAt s.mem cmdline)
      ((LineRun.mk s req []).mgmtReqInit2 passwordHash cmdline) := by
  have href := (LineRun.mk s req []).refines passwordHash cmdline
  change LineRun.Refines _ (mgmtReqInit2 _ _ (strAt s.mem cmdline)) _ at href
  cases hinit : mgmtReqInit2 passwordHash (.from req.senderSock) (strAt s.mem cmdline) with
  | undefined => exact absurd hinit h
  | failed reply =>
    rw [hinit] at href
    obtain ⟨r', hrun, hsent⟩ := href
    obtain ⟨tag, -, msg, hmsg, rfl⟩ := mgmtReqInit2_failed hinit
    rw [hrun]
    exact ⟨tag, msg, hmsg, hsent⟩
  | ready req' =>
    rw [hinit] at href
    obtain ⟨r', hrun, hsent, hreq, hargv0, hzero⟩ := href
    obtain ⟨htype, hcmd, hauth⟩ := mgmtReqInit2_parts hinit
    rw [hrun]
    rw [← hreq] at htype hcmd hauth
    exact ⟨hsent, hzero, hargv0, htype, hcmd, hauth⟩

theorem handlersFollow (σ : Type*) {udpBuf : List UInt8} (hmem : s.mem = cmdlinebuf udpBuf) :
    HandlersFollow σ passwordHash req.senderSock udpBuf
      ((LineRun.mk s req []).mgmtReqInit2 passwordHash 0) := by
  have href := (LineRun.mk s req []).refines passwordHash 0
  have hline : (LineRun.mk s req []).str 0 = cmdlineOf udpBuf := by
    change strAt s.mem 0 = _
    rw [hmem, strAt_cmdlinebuf]
  rw [hline] at href
  unfold HandlersFollow EdgeMgmt.handleMgmtJson SnMgmt.handleMgmtJson
  cases hinit : mgmtReqInit2 passwordHash (.from req.senderSock) (cmdlineOf udpBuf) with
  | undefined =>
    have hrun : (LineRun.mk s req []).mgmtReqInit2 passwordHash 0 = none := by
      rw [hinit] at href
      exact href
    rw [hrun]
    exact ⟨fun s => rfl, fun s file => rfl⟩
  | failed reply =>
    rw [hinit] at href
    obtain ⟨r', hrun, hsent⟩ := href
    rw [hrun]
    simp [hsent]
  | ready req' =>
    rw [hinit] at href
    obtain ⟨r', hrun, -, hreq, -⟩ := href
    rw [hrun]
    simp [hreq]

/-- **The request is parsed as the callers rely on, unless the options consist of colons.** -/
theorem requestParsed_iff (σ : Type*) (passwordHash : UInt64) (req : LineReq) (s : Scan)
    (cmdline : ℕ) :
    RequestParsed σ passwordHash req s cmdline ↔ ¬ Tagless (strAt s.mem cmdline) := by
  rw [← mgmtReqInit2_undefined_iff passwordHash (.from req.senderSock)]
  constructor
  · intro h hinit
    have href := (LineRun.mk s req []).refines passwordHash cmdline
    change LineRun.Refines _ (mgmtReqInit2 _ _ (strAt s.mem cmdline)) _ at href
    rw [hinit] at href
    have hparsed := h.parsed
    rw [show (LineRun.mk s req []).mgmtReqInit2 passwordHash cmdline = none from href] at hparsed
    exact hparsed
  · intro hinit
    refine ⟨mgmtReqInit2_parsed hinit, fun udpBuf hmem hzero => ?_⟩
    rw [hzero]
    exact handlersFollow σ hmem

end

/-- The options of this line are a colon. -/
theorem not_requestParsed_colon :
    ¬ RequestParsed Unit 0 ⟨.unknown, none, none, .replicate 10 0, .zero⟩
      ⟨cmdlinebuf (ascii "r : help"), 0⟩ 0 := by
  intro h
  have hparsed := h.parsed
  exact hparsed

end N2n
