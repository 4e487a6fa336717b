import Bonded.Http

/-! What the routing of an HTTP request depends on. The header section declares the method, the
path, the length of the body and whether the connection is upgraded; the server decides from
everything that its reads have brought by the end of the body. -/
namespace Bonded.HttpRouting

open CertProof Http JsonText Text

structure Routed where
  upgrade : Bool
  method : String
  path : String
  body : List UInt8
  deriving DecidableEq

def routed (buf : List UInt8) (isWs : Bool) : Routed :=
  let parts := parseRequestParts buf
  ⟨isWs,parts.1,parts.2.1,utf8 parts.2.2⟩

/-- What a stream with a blank line at `h` declares in its header section. -/
def declared (stream : List UInt8) (h : ℕ) : Routed :=
  let parts := parseRequestParts (stream.take h)
  ⟨isWebsocketUpgrade (stream.take h),parts.1,parts.2.1,
    (stream.drop (h+4)).take (parseContentLength (stream.take h))⟩

/-- The target length is computed, and a request that is returned is the declared one. -/
def Faithful (reads : Reads) (tail : Tail) : Prop :=
  readUntilEndOfHeaders reads tail ≠ .overflow ∧
    ∀ buf isWs, readUntilEndOfHeaders reads tail = .returned (buf,isWs) →
      (findHeaderTerminator reads.stream).map (declared reads.stream) = some (routed buf isWs)

/-- A header section that reads like an empty text. -/
def Nameless (stream : List UInt8) (h : ℕ) : Prop :=
  isWebsocketUpgrade (stream.take h) = false ∧ (parseRequestParts (stream.take h)).1 = "" ∧
    (parseRequestParts (stream.take h)).2.1 = "/" ∧ parseContentLength (stream.take h) = 0

/-- The bytes end with the declared body, are a text, and the body has no line like an upgrade
that the header section does not have; or they are no text, and the header section reads like
an empty one. -/
def Plain (stream : List UInt8) (h : ℕ) (bytes : List UInt8) : Prop :=
  bytes.length = targetLen stream h ∧ fromUtf8 bytes ≠ none ∧
      (isWebsocketUpgrade (bytes.drop (h+4)) = true →
        isWebsocketUpgrade (stream.take h) = true) ∨
    fromUtf8 bytes = none ∧ Nameless stream h

/-- The declared length fits into 64 bits, and no read goes beyond the declared body, up to
which all is plain. -/
def Clean (reads : Reads) : Prop :=
  ∀ h, Reached h reads.chunks [] → targetLen reads.stream h < 2^64 ∧
    ∀ bytes, arrived (targetLen reads.stream h) reads.chunks [] = some bytes →
      Plain reads.stream h bytes

section Proofs

theorem routed_of_no_text {buf : List UInt8} (h : fromUtf8 buf = none) :
    routed buf (isWebsocketUpgrade buf) = ⟨false,"","/",[]⟩ := by
  simp only [routed,parseRequestParts,isWebsocketUpgrade,textOf_none h,utf8_eq_encode]
  rfl

theorem declared_of_prefix {stream buf : List UInt8} {h : ℕ} (hbuf : buf <+: stream)
    (hlength : targetLen stream h ≤ buf.length) :
    declared stream h = declared buf h ∧ targetLen stream h = targetLen buf h := by
  obtain ⟨rest,rfl⟩ := hbuf
  simp only [targetLen] at hlength
  have htake : (buf++rest).take h = buf.take h := List.take_append_of_le_length (by omega)
  simp only [declared,targetLen,htake,and_true]
  rw [htake] at hlength
  congr 1
  rw [List.drop_append_of_le_length (by omega),
    List.take_append_of_le_length (by rw [List.length_drop]; omega)]

theorem routed_iff_plain {buf : List UInt8} {h : ℕ} (hfind : findHeaderTerminator buf = some h)
    (hlength : targetLen buf h ≤ buf.length) :
    declared buf h = routed buf (isWebsocketUpgrade buf) ↔ Plain buf h buf := by
  have hbody : ((buf.drop (h+4)).take (parseContentLength (buf.take h))).length =
      parseContentLength (buf.take h) := by
    simp only [targetLen] at hlength
    rw [List.length_take,List.length_drop]
    omega
  cases htext : fromUtf8 buf with
  | none =>
    simp only [routed_of_no_text htext,declared,Plain,Nameless,htext,ne_eq,not_true_eq_false,
      false_and,and_false,false_or,true_and,Routed.mk.injEq]
    rw [← List.length_eq_zero_iff,hbody]
  | some text =>
    obtain ⟨head,body,hsplit,hcut,hhead,hrest⟩ := cut_of_text htext hfind
    have hraw := fromUtf8_some htext
    rw [hcut] at hraw hsplit
    have hws := isWebsocketUpgrade_cut head body
    have hparts := parseRequestParts_cut hsplit
    rw [← hraw] at hws hparts
    simp only [Plain,htext,reduceCtorEq,false_and,or_false,ne_eq,not_false_eq_true,true_and]
    simp only [routed,hparts,hws,declared,Routed.mk.injEq,hhead,hrest,utf8_eq_encode,
      String.toList_ofList,true_and]
    have hupgrade : ∀ a b : Bool, a = (a || b) ↔ (b = true → a = true) := by decide
    have hend : (encode body).take (parseContentLength (encode head)) = encode body ↔
        buf.length = targetLen buf h := by
      have hlast := congrArg List.length hrest
      rw [List.length_drop] at hlast
      rw [List.take_eq_self_iff,targetLen,hhead]
      rw [targetLen,hhead] at hlength
      omega
    rw [hupgrade,hend,and_comm]

/-- What has arrived with the declared body is routed as declared if it is plain. -/
theorem declared_iff_plain {reads : Reads} {h : ℕ} (hreached : Reached h reads.chunks [])
    {bytes : List UInt8}
    (hbytes : arrived (targetLen reads.stream h) reads.chunks [] = some bytes) :
    declared reads.stream h = routed bytes (isWebsocketUpgrade bytes) ↔
      Plain reads.stream h bytes := by
  obtain ⟨hlength,-,rest,hrest⟩ := arrived_append hbytes
  have hstream : reads.stream = bytes++rest := hrest.symm
  have hfind : findHeaderTerminator bytes = some h := by
    refine (findHeaderTerminator_append ?_ rest).mp (hstream ▸ hreached.1)
    rw [targetLen] at hlength
    omega
  have htake : reads.stream.take h = bytes.take h := by
    rw [hstream]
    refine List.take_append_of_le_length ?_
    rw [targetLen] at hlength
    omega
  obtain ⟨hdeclared,htarget⟩ := declared_of_prefix (hstream ▸ List.prefix_append _ _) hlength
  rw [htarget] at hlength
  rw [hdeclared,routed_iff_plain hfind hlength]
  simp only [Plain,Nameless,htarget,htake]

/-- Once the header section has been read, the rest is decided by what has arrived. -/
theorem faithful_of_reached {reads : Reads} {tail : Tail} {h : ℕ}
    (hreached : Reached h reads.chunks []) : Faithful reads tail ↔
      targetLen reads.stream h < 2^64 ∧
        ∀ bytes, arrived (targetLen reads.stream h) reads.chunks [] = some bytes →
          Plain reads.stream h bytes := by
  have hfind : findHeaderTerminator reads.stream = some h := hreached.1
  have hread := readUntilEndOfHeaders_of_reached tail hreached
  by_cases hfits : targetLen reads.stream h < 2^64
  · rw [if_pos hfits] at hread
    simp only [Faithful,hread,hfits,true_and,readBody_returned,hfind,Option.map_some,
      Option.some.injEq]
    constructor
    · rintro ⟨-,hrouted⟩ bytes hbytes
      exact (declared_iff_plain hreached hbytes).mp (hrouted bytes _ ⟨bytes,hbytes,rfl⟩)
    · intro hplain
      refine ⟨readBody_ne_overflow _ _ _ _ _,?_⟩
      rintro buf isWs ⟨bytes,hbytes,heq⟩
      cases heq
      exact (declared_iff_plain hreached hbytes).mpr (hplain buf hbytes)
  · rw [if_neg hfits] at hread
    exact iff_of_false (fun hfaithful => hfaithful.1 hread) fun hclean => hfits hclean.1

end Proofs

/-- For every stream and every way to split it into reads, the computation of the target length
does not overflow and a returned request is routed as its header section declares, exactly when
the declared length fits and no read goes beyond a body that is plain. -/
theorem faithful_iff_clean (reads : Reads) (tail : Tail) : Faithful reads tail ↔ Clean reads := by
  by_cases hreached : ∃ h, Reached h reads.chunks []
  · obtain ⟨h,hreached⟩ := hreached
    rw [faithful_of_reached hreached]
    refine ⟨fun hclean h' hreached' => ?_,fun hclean => hclean h hreached⟩
    obtain rfl : h' = h := Option.some.inj (hreached'.1.symm.trans hreached.1)
    exact hclean
  · simp only [not_exists] at hreached
    obtain ⟨hne,hnever⟩ := readHeaders_of_not_reached tail rfl hreached
    exact iff_of_true ⟨hne,fun buf isWs hreturned => absurd hreturned (hnever _)⟩
      fun h hh => absurd hh (hreached h)

/-- Requests that are routed as declared do not depend on how their stream is split. -/
theorem routed_agree {reads reads' : Reads} {tail tail' : Tail} {buf buf' : List UInt8}
    {isWs isWs' : Bool} (hstream : reads.stream = reads'.stream) (h : Faithful reads tail)
    (h' : Faithful reads' tail')
    (hreturned : readUntilEndOfHeaders reads tail = .returned (buf,isWs))
    (hreturned' : readUntilEndOfHeaders reads' tail' = .returned (buf',isWs')) :
    routed buf isWs = routed buf' isWs' := by
  have heq := h.2 buf isWs hreturned
  rw [hstream,h'.2 buf' isWs' hreturned'] at heq
  exact (Option.some.inj heq).symm

section Misrouted

theorem read_single {bytes : List UInt8} {h : ℕ}
    (hsizes : ∀ c ∈ [bytes], 1 ≤ c.length ∧ c.length ≤ 256)
    (hfind : findHeaderTerminator bytes = some h) :
    readUntilEndOfHeaders ⟨[bytes],hsizes⟩ .silent =
      if targetLen bytes h < 2^64 then
        if bytes.length < targetLen bytes h then .waiting
        else .returned (bytes,isWebsocketUpgrade bytes)
      else .overflow := by
  simp only [readUntilEndOfHeaders,readHeaders,readBody,List.nil_append,hfind,targetLen,
    Tail.outcome]
  rfl

/-- The body has a line that looks like an upgrade. -/
def smuggled : List Char :=
  "POST / HTTP/1.1\r\ncontent-length: 20\r\n\r\n\r\nupgrade: websocket".toList

/-- A read brings bytes behind the request. -/
def pipelined : List Char := "GET / HTTP/1.1\r\n\r\nGET".toList

/-- The declared length is the largest number of 64 bits. -/
def endless : List Char := "GET / HTTP/1.1\r\ncontent-length: 18446744073709551615\r\n\r\n".toList

def smuggledReads : Reads := ⟨[encode smuggled],by decide +kernel⟩

def pipelinedReads : Reads := ⟨[encode pipelined],by decide +kernel⟩

def endlessReads : Reads := ⟨[encode endless],by decide +kernel⟩

theorem requests_misrouted : ¬ Faithful smuggledReads .silent ∧
    ¬ Faithful pipelinedReads .silent ∧ ¬ Faithful endlessReads .silent := by
  refine ⟨?_,?_,?_⟩
  · have hfind : findHeaderTerminator (encode smuggled) = some 35 := by decide +kernel
    have htake : (encode smuggled).take 35 = encode (smuggled.take 35) := by decide +kernel
    have hlength : parseContentLength (encode (smuggled.take 35)) = 20 := by
      rw [parseContentLength,textOf_encode]
      decide +kernel
    have hws : isWebsocketUpgrade (encode smuggled) = true := by
      rw [isWebsocketUpgrade,textOf_encode]
      decide +kernel
    have hheader : isWebsocketUpgrade (encode (smuggled.take 35)) = false := by
      rw [isWebsocketUpgrade,textOf_encode]
      decide +kernel
    have hread : readUntilEndOfHeaders smuggledReads .silent =
        .returned (encode smuggled,true) := by
      rw [smuggledReads,read_single _ hfind,targetLen,htake,hlength,hws]
      decide +kernel
    intro h
    have hrouted := h.2 _ _ hread
    simp [smuggledReads,Reads.stream,hfind,declared,routed,htake,hheader] at hrouted
  · have hfind : findHeaderTerminator (encode pipelined) = some 14 := by decide +kernel
    have htake : (encode pipelined).take 14 = encode (pipelined.take 14) := by decide +kernel
    have hlength : parseContentLength (encode (pipelined.take 14)) = 0 := by
      rw [parseContentLength,textOf_encode]
      decide +kernel
    have hbody : (parseRequestParts (encode pipelined)).2.2 = "GET" := by
      rw [parseRequestParts,textOf_encode]
      decide +kernel
    have hread : readUntilEndOfHeaders pipelinedReads .silent =
        .returned (encode pipelined,isWebsocketUpgrade (encode pipelined)) := by
      rw [pipelinedReads,read_single _ hfind,targetLen,htake,hlength]
      rfl
    intro h
    have hrouted := h.2 _ _ hread
    simp only [pipelinedReads,Reads.stream,List.flatten_cons,List.flatten_nil,List.append_nil,
      hfind,Option.map_some,Option.some.injEq] at hrouted
    have hbytes := congrArg (List.length ∘ Routed.body) hrouted
    simp only [Function.comp_apply,declared,routed,htake,hlength,hbody,List.take_zero,
      utf8_eq_encode] at hbytes
    exact absurd hbytes (by decide)
  · have hfind : findHeaderTerminator (encode endless) = some 52 := by decide +kernel
    have htake : (encode endless).take 52 = encode (endless.take 52) := by decide +kernel
    have hlength : parseContentLength (encode (endless.take 52)) = 18446744073709551615 := by
      rw [parseContentLength,textOf_encode]
      decide +kernel
    refine fun h => h.1 ?_
    rw [endlessReads,read_single _ hfind,targetLen,htake,hlength]
    rfl

end Misrouted

end Bonded.HttpRouting
