import Maixii.Lib.ScanText
import Maixii.Xop.RtspMessage

/-!
# `Xop/RtspUrl.lean`: taking an RTSP URL apart

The two places that do it, `ParseRequestLine` of `xop/RtspMessage.cpp` and `ParseRtspUrl` of
`xop/rtsp.h`, try the same two patterns one after the other, with arrays of different sizes; the
first looks at the scheme and the second skips seven bytes. `UrlForm` is the grammar they stand for.

The patterns take more than that. `"%[^:]:%hu/%s"` finds a port behind any colon, also one in the
path; `"%[^/]/%s"` takes a host with anything before the slash; `%hu` allows white space, a sign and
numbers that do not fit; `%s` skips white space and stops at it. And the first conversion copies up
to the first colon, which may be far behind the host. **A URL is taken apart as it should be exactly
when it keeps clear of that** (`decomposed_iff`).
-/

set_option autoImplicit false

namespace Maixii.Xop

open Maixii.Lib

/-! ## The grammar -/

/-- A host is something without `:` and `/`. -/
def IsHost (h : Bytes) : Prop := h ≠ [] ∧ 58 ∉ h ∧ 47 ∉ h

/-- A suffix is something without white space. -/
def IsSuffix (s : Bytes) : Prop := s ≠ [] ∧ Solid s

instance (h : Bytes) : Decidable (IsHost h) := inferInstanceAs (Decidable (_ ∧ _))

instance (s : Bytes) : Decidable (IsSuffix s) := inferInstanceAs (Decidable (_ ∧ _))

/-- `host[:port]/suffix`, with the port 554 if there is none. -/
inductive UrlForm : Bytes → Bytes × Nat × Bytes → Prop
  | port {h q s : Bytes} (hh : IsHost h) (hq : Digits q) (hlt : digitsValue 0 q ≤ 65535)
      (hs : IsSuffix s) : UrlForm (h ++ 58 :: (q ++ 47 :: s)) (h, digitsValue 0 q, s)
  | path {h s : Bytes} (hh : IsHost h) (hs : IsSuffix s) : UrlForm (h ++ 47 :: s) (h, 554, s)

/-- `rtsp://`. -/
def scheme : Bytes := ascii "rtsp://"

/-- What a URL should be taken apart into. -/
def HasForm (url : Bytes) (parts : Bytes × Nat × Bytes) : Prop :=
  startsWith scheme url = true ∧ UrlForm (url.drop 7) parts

/-! ## The two parsers -/

/-- The two patterns, into arrays of `size` bytes. -/
def parseUrlInto (size : Nat) (rest : Bytes) : Option (Option (Bytes × Nat × Bytes)) :=
  let f₁ := sscanf rest RtspRequest.portFormat
  if !RtspRequest.fits f₁ [size, 0, size] then none
  else match f₁ with
    | [.text ip, .num port, .text suffix] => some (some (ip, port, suffix))
    | _ =>
        let f₂ := sscanf rest RtspRequest.pathFormat
        if !RtspRequest.fits f₂ [size, size] then none
        else match f₂ with
          | [.text ip, .text suffix] => some (some (ip, 554, suffix))
          | _ => some none

theorem parseUrl_eq (rest : Bytes) : RtspRequest.parseUrl rest = parseUrlInto 64 rest := rfl

/-- The part of `ParseRequestLine` that takes the URL apart. -/
def requestUrl (url : Bytes) : Option (Option (Bytes × Nat × Bytes)) :=
  if startsWith scheme url then RtspRequest.parseUrl (url.drop 7) else some none

/-- `RtspUrlInfo`. -/
structure RtspUrlInfo where
  url : Bytes
  ip : Bytes
  port : Nat
  suffix : Bytes
  deriving DecidableEq

/-- `Rtsp::ParseRtspUrl`; `url.c_str() + 7` has to be inside the string. -/
def parseRtspUrl (url : Bytes) : Option (Option RtspUrlInfo) :=
  if url.length < 7 then none
  else (parseUrlInto 100 (url.drop 7)).map fun parts =>
    parts.map fun (ip, port, suffix) => ⟨url, ip, port, suffix⟩

/-- What `ParseRtspUrl` takes the URL apart into. -/
def rtspUrlParts (url : Bytes) : Option (Option (Bytes × Nat × Bytes)) :=
  (parseRtspUrl url).map fun info => info.map fun i => (i.ip, i.port, i.suffix)

/-- `ParseRequestLine` is this, for a line that has the three words and a method. -/
theorem parseRequestLine_url (r : RtspRequest) {message method url version : Bytes} {m : Method}
    (hline : sscanf message RtspRequest.lineFormat = [.text method, .text url, .text version])
    (hfits : RtspRequest.fits [.text method, .text url, .text version] [64, 512, 64] = true)
    (hm : RtspRequest.methodOf method = some m) :
    (r.parseRequestLine message).map Prod.fst = (requestUrl url).map Option.isSome := by
  unfold RtspRequest.parseRequestLine requestUrl scheme
  simp only [hline, hfits, hm, Bool.not_true, Bool.false_eq_true, if_false]
  cases hscheme : startsWith (ascii "rtsp://") url with
  | false => rfl
  | true =>
    simp only [Bool.not_true, Bool.false_eq_true, if_false, if_true]
    cases RtspRequest.parseUrl (url.drop 7) with
    | none => rfl
    | some parts => cases parts <;> rfl

/-! ## The property -/

/-- What was read is what the grammar says. -/
def Decomposes (url : Bytes) (result : Option (Option (Bytes × Nat × Bytes))) : Prop :=
  ∃ parts, result = some parts ∧ ∀ p, parts = some p ↔ HasForm url p

/-- Both take the URL apart as the grammar says, and so they agree. -/
structure Decomposed (url : Bytes) : Prop where
  request : Decomposes url (requestUrl url)
  rtsp : Decomposes url (rtspUrlParts url)
  agree : requestUrl url = rtspUrlParts url

/-! ## The condition -/

/-- Somewhere there is a colon, a number, a slash and a word: the first pattern matches. -/
def HasPort (s : Bytes) : Prop :=
  ∃ x q y, s = x ++ 58 :: (q ++ 47 :: y) ∧ x ≠ [] ∧ 58 ∉ x ∧ NumberText q ∧ ¬ Blank y

/-- There is no slash, nothing before the first one, or no word behind it: the second pattern does
not match. -/
def Headless (s : Bytes) : Prop := 47 ∉ s ∨ ∃ x y, s = x ++ 47 :: y ∧ 47 ∉ x ∧ (x = [] ∨ Blank y)

/-- What both patterns refuse, before it is too long for them. -/
structure Refused (size : Nat) (s : Bytes) : Prop where
  noPort : ¬ HasPort s
  headless : Headless s
  colon : (s.takeWhile (· ≠ 58)).length < size
  slash : (s.takeWhile (· ≠ 47)).length < size

/-- **The URLs that keep clear of what the patterns take too much**, behind the scheme. -/
inductive Plain (size : Nat) : Bytes → Prop
  | port {h q s : Bytes} (hh : IsHost h) (hq : Digits q) (hlt : digitsValue 0 q ≤ 65535)
      (hs : IsSuffix s) (hzero : 0 ∉ h ∧ 0 ∉ s) (hhost : h.length < size)
      (hsuffix : s.length < size) : Plain size (h ++ 58 :: (q ++ 47 :: s))
  | path {h s : Bytes} (hh : IsHost h) (hs : IsSuffix s) (hzero : 0 ∉ h ∧ 0 ∉ s)
      (hcolon : ¬ HasPort (h ++ 47 :: s)) (hhost : ((h ++ 47 :: s).takeWhile (· ≠ 58)).length < size)
      (hsuffix : s.length < size) : Plain size (h ++ 47 :: s)
  | refused {r : Bytes} (hr : Refused size (cstr r)) (hform : ∀ p, ¬ UrlForm r p) : Plain size r

/-- The condition on a whole URL. -/
def Decomposable (url : Bytes) : Prop :=
  if startsWith scheme url then Plain 64 (url.drop 7)
  else 7 ≤ url.length ∧ Refused 100 (cstr (url.drop 7))

/-! ## What the patterns take -/

section Patterns

variable {size : Nat} {s rest : Bytes}

theorem stops_slash (y : Bytes) : Stops isDigit (47 :: y) := stops_cons (by decide)

/-- A number is cut in one way at the first slash. -/
theorem cut_number {q q' y y' : Bytes} (hq : NumberText q) (hq' : NumberText q')
    (h : q ++ 47 :: y = q' ++ 47 :: y') : q = q' ∧ y = y' := by
  have hslash : ∀ {q}, NumberText q → 47 ∉ q := by
    rintro q ⟨gap, sign, ds, rfl, hgap, hsign, -, hds⟩ hm
    rcases List.mem_append.mp hm with hm | hm
    · rcases List.mem_append.mp hm with hm | hm
      · exact absurd (hgap _ hm) (by decide)
      · simp only [List.mem_cons, List.not_mem_nil, or_false] at hsign
        rcases hsign with rfl | rfl | rfl <;> simp at hm
    · exact absurd (hds _ hm) (by decide)
  exact cut_unique (hslash hq) (hslash hq') h

/-- **The first pattern matches**, with the text before the colon and the word behind the slash. -/
theorem scan_hasPort {x q y : Bytes} {n : Nat} (hx : x ≠ []) (hc : 58 ∉ x) (hy : ¬ Blank y)
    (hread : readUnsigned ((q ++ 47 :: y).dropWhile isSpace) = some (n, 47 :: y)) :
    scan RtspRequest.portFormat (x ++ 58 :: (q ++ 47 :: y)) =
      [.text x, .num (n % 2 ^ 16), .text (firstWord y)] := by
  have hword : firstWord y ≠ [] := mt firstWord_eq_nil.mp hy
  unfold RtspRequest.portFormat
  rw [scan_until hx hc (stops_cons (by simp)), scan_lit, scan, hread]
  dsimp only
  rw [scan_lit, scan_last_word, if_neg hword]

/-- **It does not match**: fewer than three fields, of which the first is the text before the
colon. -/
theorem scan_not_hasPort (hsize : 0 < size) (h : ¬ HasPort s) :
    ∃ fs, scan RtspRequest.portFormat s = fs ∧ fs.length < 3 ∧
      (RtspRequest.fits fs [size, 0, size] = true ↔ (s.takeWhile (· ≠ 58)).length < size) := by
  unfold RtspRequest.portFormat
  rcases cut_at 58 s with ⟨-, htake, hdrop⟩ | ⟨w, t, rfl, hw, htake, hdrop⟩
  · -- No colon.
    rw [scan, htake, hdrop]
    split
    · rename_i hnil
      refine ⟨[], rfl, by simp, ?_⟩
      rw [hnil]
      simpa [RtspRequest.fits] using hsize
    · refine ⟨[.text s], rfl, by simp, ?_⟩
      simp [RtspRequest.fits]
  · rw [scan, htake, hdrop]
    split
    · rename_i hnil
      refine ⟨[], rfl, by simp, ?_⟩
      rw [hnil]
      simpa [RtspRequest.fits] using hsize
    · rename_i hne
      rw [scan_lit, scan]
      cases hread : readUnsigned (t.dropWhile isSpace) with
      | none =>
        refine ⟨[.text w], rfl, by simp, ?_⟩
        simp [RtspRequest.fits]
      | some r =>
        obtain ⟨n, t'⟩ := r
        obtain ⟨q, rfl, hq, -⟩ := readUnsigned_sound hread
        -- What is behind the number is no slash with a word.
        have htail : scan [.lit 47, .word] t' = [] := by
          cases t' with
          | nil => rfl
          | cons b y =>
            by_cases hb : b = 47
            · subst hb
              rw [scan_lit, scan_last_word, if_pos]
              by_contra hword
              exact h ⟨w, q, y, rfl, hne, hw, hq, fun hy => hword (firstWord_eq_nil.mpr hy)⟩
            · exact scan_lit_ne hb
        dsimp only
        rw [htail]
        refine ⟨[.text w, .num (n % 2 ^ 16)], rfl, by simp, ?_⟩
        simp [RtspRequest.fits]

/-- **The second pattern matches.** -/
theorem scan_path {x y : Bytes} (hx : x ≠ []) (hc : 47 ∉ x) (hy : ¬ Blank y) :
    scan RtspRequest.pathFormat (x ++ 47 :: y) = [.text x, .text (firstWord y)] := by
  have hword : firstWord y ≠ [] := mt firstWord_eq_nil.mp hy
  unfold RtspRequest.pathFormat
  rw [scan_until hx hc (stops_cons (by simp)), scan_lit, scan_last_word, if_neg hword]

/-- **It does not match.** -/
theorem scan_headless (hsize : 0 < size) (h : Headless s) :
    ∃ fs, scan RtspRequest.pathFormat s = fs ∧ fs.length < 2 ∧
      (RtspRequest.fits fs [size, size] = true ↔ (s.takeWhile (· ≠ 47)).length < size) := by
  unfold RtspRequest.pathFormat
  rcases cut_at 47 s with ⟨-, htake, hdrop⟩ | ⟨w, t, rfl, hw, htake, hdrop⟩
  · rw [scan, htake, hdrop]
    split
    · rename_i hnil
      refine ⟨[], rfl, by simp, ?_⟩
      rw [hnil]
      simpa [RtspRequest.fits] using hsize
    · refine ⟨[.text s], rfl, by simp, ?_⟩
      simp [RtspRequest.fits]
  · rw [scan, htake, hdrop]
    split
    · rename_i hnil
      refine ⟨[], rfl, by simp, ?_⟩
      rw [hnil]
      simpa [RtspRequest.fits] using hsize
    · rename_i hne
      have hblank : Blank t := by
        rcases h with hno | ⟨x, y, heq, hx, hxy⟩
        · exact absurd (by simp) hno
        · obtain ⟨rfl, rfl⟩ := cut_unique hw hx heq
          exact hxy.resolve_left hne
      rw [scan_lit, scan_last_word, if_pos (firstWord_eq_nil.mpr hblank)]
      refine ⟨[.text w], rfl, by simp, ?_⟩
      simp [RtspRequest.fits]

/-- One of the patterns matches, or neither does. -/
theorem pattern_cases (s : Bytes) :
    HasPort s ∨ (¬ HasPort s ∧ ∃ x y, s = x ++ 47 :: y ∧ x ≠ [] ∧ 47 ∉ x ∧ ¬ Blank y) ∨
      (¬ HasPort s ∧ Headless s) := by
  by_cases hport : HasPort s
  · exact .inl hport
  · refine .inr ?_
    rcases cut_at 47 s with ⟨hno, -, -⟩ | ⟨w, t, rfl, hw, -, -⟩
    · exact .inr ⟨hport, .inl hno⟩
    · by_cases hhead : w = [] ∨ Blank t
      · exact .inr ⟨hport, .inr ⟨w, t, rfl, hw, hhead⟩⟩
      · rw [not_or] at hhead
        exact .inl ⟨hport, w, t, rfl, hhead.1, hw, hhead.2⟩

end Patterns

/-! ## What the parsers return -/

section Results

variable {size : Nat} {rest x q y : Bytes} {n : Nat}

theorem parseUrlInto_port (hcstr : cstr rest = x ++ 58 :: (q ++ 47 :: y)) (hx : x ≠ [])
    (hc : 58 ∉ x) (hy : ¬ Blank y)
    (hread : readUnsigned ((q ++ 47 :: y).dropWhile isSpace) = some (n, 47 :: y)) :
    parseUrlInto size rest =
      if x.length < size ∧ (firstWord y).length < size then
        some (some (x, n % 2 ^ 16, firstWord y))
      else none := by
  have hscan : sscanf rest RtspRequest.portFormat =
      [.text x, .num (n % 2 ^ 16), .text (firstWord y)] := by
    rw [sscanf, hcstr, scan_hasPort hx hc hy hread]
  unfold parseUrlInto
  rw [hscan]
  simp [RtspRequest.fits, apply_ite]

/-- When the first pattern does not match, only its first conversion matters. -/
theorem parseUrlInto_noPort (hsize : 0 < size) (h : ¬ HasPort (cstr rest)) :
    parseUrlInto size rest =
      if ((cstr rest).takeWhile (· ≠ 58)).length < size then
        let f₂ := sscanf rest RtspRequest.pathFormat
        if !RtspRequest.fits f₂ [size, size] then none
        else match f₂ with
          | [.text ip, .text suffix] => some (some (ip, 554, suffix))
          | _ => some none
      else none := by
  obtain ⟨fs, hscan, hlen, hfits⟩ := scan_not_hasPort hsize h
  unfold parseUrlInto
  rw [sscanf, hscan]
  dsimp only
  by_cases hlt : ((cstr rest).takeWhile (· ≠ 58)).length < size
  · rw [if_pos hlt, hfits.mpr hlt, if_neg (by simp)]
    split
    · simp at hlen
    · rfl
  · have hno : RtspRequest.fits fs [size, 0, size] = false := by
      rw [← Bool.not_eq_true, hfits]
      exact hlt
    rw [if_neg hlt, hno]
    rfl

theorem parseUrlInto_path (hsize : 0 < size) (h : ¬ HasPort (cstr rest))
    (hcstr : cstr rest = x ++ 47 :: y) (hx : x ≠ []) (hc : 47 ∉ x) (hy : ¬ Blank y) :
    parseUrlInto size rest =
      if ((cstr rest).takeWhile (· ≠ 58)).length < size ∧ x.length < size ∧
          (firstWord y).length < size then
        some (some (x, 554, firstWord y))
      else none := by
  have hscan : sscanf rest RtspRequest.pathFormat = [.text x, .text (firstWord y)] := by
    rw [sscanf, hcstr, scan_path hx hc hy]
  rw [parseUrlInto_noPort hsize h, hscan]
  by_cases hlt : ((cstr rest).takeWhile (· ≠ 58)).length < size
  · rw [if_pos hlt]
    simp only [hlt, true_and]
    simp [RtspRequest.fits, apply_ite]
  · rw [if_neg hlt, if_neg (fun hall => hlt hall.1)]

theorem parseUrlInto_headless (hsize : 0 < size) (h : ¬ HasPort (cstr rest))
    (hhead : Headless (cstr rest)) :
    parseUrlInto size rest =
      if ((cstr rest).takeWhile (· ≠ 58)).length < size ∧
          ((cstr rest).takeWhile (· ≠ 47)).length < size then some none
      else none := by
  obtain ⟨fs, hscan, hlen, hfits⟩ := scan_headless hsize hhead
  rw [parseUrlInto_noPort hsize h, sscanf, hscan]
  by_cases hlt : ((cstr rest).takeWhile (· ≠ 58)).length < size
  · rw [if_pos hlt]
    by_cases hlt' : ((cstr rest).takeWhile (· ≠ 47)).length < size
    · dsimp only
      rw [hfits.mpr hlt', if_neg (by simp), if_pos ⟨hlt, hlt'⟩]
      split
      · simp at hlen
      · rfl
    · have hno : RtspRequest.fits fs [size, size] = false := by
        rw [← Bool.not_eq_true, hfits]
        exact hlt'
      rw [if_neg (fun hall : _ ∧ _ => hlt' hall.2)]
      dsimp only
      rw [hno]
      rfl
  · rw [if_neg hlt, if_neg (fun hall => hlt hall.1)]

/-- **Nothing is accepted** exactly of what both patterns refuse. -/
theorem parseUrlInto_none_iff (hsize : 0 < size) :
    parseUrlInto size rest = some none ↔ Refused size (cstr rest) := by
  constructor
  · intro heq
    rcases pattern_cases (cstr rest) with ⟨x, q, y, hcstr, hx, hc, hq, hy⟩ |
        ⟨hport, x, y, hcstr, hx, hc, hy⟩ | ⟨hport, hhead⟩
    · obtain ⟨n, hread⟩ := readUnsigned_complete hq (stops_slash y)
      rw [parseUrlInto_port hcstr hx hc hy hread] at heq
      split at heq <;> simp at heq
    · rw [parseUrlInto_path hsize hport hcstr hx hc hy] at heq
      split at heq <;> simp at heq
    · rw [parseUrlInto_headless hsize hport hhead] at heq
      split at heq
      · rename_i hlt
        exact ⟨hport, hhead, hlt.1, hlt.2⟩
      · simp at heq
  · intro h
    rw [parseUrlInto_headless hsize h.noPort h.headless, if_pos ⟨h.colon, h.slash⟩]

end Results

/-! ## One reading of a URL -/

section Unique

variable {h h' t t' r : Bytes} {b b' : UInt8} {p p' : Bytes × Nat × Bytes}

/-- A text is cut in one way at its first `:` or `/`. -/
theorem host_unique (hh : 58 ∉ h ∧ 47 ∉ h) (hh' : 58 ∉ h' ∧ 47 ∉ h') (hb : b = 58 ∨ b = 47)
    (hb' : b' = 58 ∨ b' = 47) (heq : h ++ b :: t = h' ++ b' :: t') :
    h = h' ∧ b = b' ∧ t = t' := by
  induction h generalizing h' with
  | nil =>
    cases h' with
    | nil =>
      obtain ⟨rfl, rfl⟩ := List.cons.inj heq
      exact ⟨rfl, rfl, rfl⟩
    | cons c h' =>
      obtain ⟨rfl, -⟩ := List.cons.inj heq
      rcases hb with rfl | rfl
      · exact absurd List.mem_cons_self hh'.1
      · exact absurd List.mem_cons_self hh'.2
  | cons c h ih =>
    cases h' with
    | nil =>
      obtain ⟨rfl, -⟩ := List.cons.inj heq
      rcases hb' with rfl | rfl
      · exact absurd List.mem_cons_self hh.1
      · exact absurd List.mem_cons_self hh.2
    | cons c' h' =>
      obtain ⟨rfl, hrest⟩ := List.cons.inj heq
      have hmem : ∀ {d : UInt8} {l : Bytes}, d ∉ c :: l → d ∉ l :=
        fun hd hm => hd (List.mem_cons_of_mem _ hm)
      obtain ⟨rfl, hb, ht⟩ := ih ⟨hmem hh.1, hmem hh.2⟩ ⟨hmem hh'.1, hmem hh'.2⟩ hrest
      exact ⟨rfl, hb, ht⟩

theorem IsHost.free (hh : IsHost h) : 58 ∉ h ∧ 47 ∉ h := hh.2

theorem digits_no {q : Bytes} {c : UInt8} (hq : Digits q) (hc : isDigit c = false) : c ∉ q := by
  intro hm
  rw [hq.2 c hm] at hc
  exact Bool.noConfusion hc

/-- **A URL has at most one reading.** -/
theorem UrlForm.unique (hp : UrlForm r p) (hp' : UrlForm r p') : p = p' := by
  cases hp with
  | port hh hq hlt hs =>
    generalize hr : _ ++ _ :: _ = r at hp'
    cases hp' with
    | port hh' hq' hlt' hs' =>
      obtain ⟨rfl, -, hrest⟩ := host_unique hh.free hh'.free (.inl rfl) (.inl rfl) hr
      obtain ⟨rfl, rfl⟩ := cut_unique (digits_no hq (by decide)) (digits_no hq' (by decide)) hrest
      rfl
    | path hh' hs' =>
      obtain ⟨-, hb, -⟩ := host_unique hh.free hh'.free (.inl rfl) (.inr rfl) hr
      exact absurd hb (by decide)
  | path hh hs =>
    generalize hr : _ ++ _ :: _ = r at hp'
    cases hp' with
    | port hh' hq' hlt' hs' =>
      obtain ⟨-, hb, -⟩ := host_unique hh.free hh'.free (.inr rfl) (.inl rfl) hr
      exact absurd hb (by decide)
    | path hh' hs' =>
      obtain ⟨rfl, -, rfl⟩ := host_unique hh.free hh'.free (.inr rfl) (.inr rfl) hr
      rfl

/-- Two parsers that both take the URL apart as they should take it apart alike. -/
theorem Decomposes.unique {url : Bytes} {result result' : Option (Option (Bytes × Nat × Bytes))}
    (h : Decomposes url result) (h' : Decomposes url result') : result = result' := by
  obtain ⟨parts, rfl, hparts⟩ := h
  obtain ⟨parts', rfl, hparts'⟩ := h'
  refine congrArg some (Option.ext fun p => ?_)
  rw [hparts p, hparts' p]

end Unique

/-! ## When a URL is taken apart as it should be -/

section Exact

variable {size : Nat} {r : Bytes}

/-- The patterns read what stands behind the scheme as the grammar does. -/
def Takes (size : Nat) (r : Bytes) : Prop :=
  ∃ parts, parseUrlInto size r = some parts ∧ ∀ p, parts = some p ↔ UrlForm r p

theorem cstr_rest (r : Bytes) : ∃ t, r = cstr r ++ t :=
  ⟨_, (List.takeWhile_append_dropWhile).symm⟩

theorem firstWord_subset {y : Bytes} {b : UInt8} (hb : b ∈ firstWord y) : b ∈ y :=
  (List.dropWhile_sublist _).subset ((List.takeWhile_sublist _).subset hb)

/-- Digits that are worth no more than a port are read as that. -/
theorem unsignedValue_port {q : Bytes} (hlt : digitsValue 0 q ≤ 65535) :
    unsignedValue false q % 2 ^ 16 = digitsValue 0 q := by
  unfold unsignedValue
  dsimp only
  rw [if_neg (by omega), if_neg (by simp)]
  omega

/-- What was read has a host, a suffix and, if it says so, a port. -/
theorem accepted_cases (hsize : 0 < size) {h s : Bytes} {port : Nat}
    (heq : parseUrlInto size r = some (some (h, port, s))) :
    (0 ∉ h ∧ 0 ∉ s) ∧ (h.length < size ∧ s.length < size) ∧
      ((∃ t, r = h ++ 58 :: t) ∨
        ((∃ t, r = h ++ 47 :: t) ∧ ¬ HasPort (cstr r) ∧
          ((cstr r).takeWhile (· ≠ 58)).length < size)) := by
  obtain ⟨rest, hrest⟩ := cstr_rest r
  have hzero := zero_notMem_cstr r
  rcases pattern_cases (cstr r) with ⟨x, q, y, hcstr, hx, hc, hq, hy⟩ |
      ⟨hport, x, y, hcstr, hx, hc, hy⟩ | ⟨hport, hhead⟩
  · obtain ⟨n, hread⟩ := readUnsigned_complete hq (stops_slash y)
    rw [parseUrlInto_port hcstr hx hc hy hread] at heq
    split at heq
    · rename_i hlt
      simp only [Option.some.injEq, Prod.mk.injEq] at heq
      obtain ⟨rfl, -, rfl⟩ := heq
      rw [hcstr] at hzero hrest
      refine ⟨⟨?_, ?_⟩, hlt, .inl ⟨q ++ 47 :: y ++ rest, by simpa using hrest⟩⟩
      · exact fun hm => hzero (by simp [hm])
      · exact fun hm => hzero (by simp [firstWord_subset hm])
    · simp at heq
  · rw [parseUrlInto_path hsize hport hcstr hx hc hy] at heq
    split at heq
    · rename_i hlt
      simp only [Option.some.injEq, Prod.mk.injEq] at heq
      obtain ⟨rfl, -, rfl⟩ := heq
      refine ⟨?_, hlt.2, .inr ⟨?_, hport, hlt.1⟩⟩
      · rw [hcstr] at hzero
        exact ⟨fun hm => hzero (by simp [hm]), fun hm => hzero (by simp [firstWord_subset hm])⟩
      · rw [hcstr] at hrest
        exact ⟨y ++ rest, by simpa using hrest⟩
    · simp at heq
  · rw [parseUrlInto_headless hsize hport hhead] at heq
    split at heq <;> simp at heq

/-- **The patterns read it right exactly when it keeps clear.** -/
theorem takes_iff (hsize : 0 < size) : Takes size r ↔ Plain size r := by
  constructor
  · rintro ⟨parts, hparts, hform⟩
    cases parts with
    | none =>
      refine .refused ((parseUrlInto_none_iff hsize).mp hparts) ?_
      intro p hp
      simpa using (hform p).mpr hp
    | some p =>
      have hp := (hform p).mp rfl
      cases hp with
      | @port h q s hh hq hlt hs =>
        obtain ⟨hzero, hlen, -⟩ := accepted_cases hsize hparts
        exact .port hh hq hlt hs hzero hlen.1 hlen.2
      | @path h s hh hs =>
        obtain ⟨hzero, hlen, hcase⟩ := accepted_cases hsize hparts
        have hclean : cstr (h ++ 47 :: s) = h ++ 47 :: s :=
          cstr_of_no_nul (by simpa using hzero)
        rcases hcase with ⟨t, ht⟩ | ⟨-, hport, hcolon⟩
        · -- The byte behind the host is a slash.
          exact absurd (List.cons.inj (List.append_cancel_left ht)).1 (by decide)
        · rw [hclean] at hport hcolon
          exact .path hh hs hzero hport hcolon hlen.2
  · intro hplain
    cases hplain with
    | @port h q s hh hq hlt hs hzero hhost hsuffix =>
      have hclean : cstr (h ++ 58 :: (q ++ 47 :: s)) = h ++ 58 :: (q ++ 47 :: s) :=
        cstr_of_no_nul (by simpa [digits_no hq (c := 0) (by decide)] using hzero)
      have hy : ¬ Blank s := by
        rw [← firstWord_eq_nil, firstWord_solid hs.2]
        exact hs.1
      have hread := readUnsigned_digits hq (stops_slash s)
      have heq : parseUrlInto size _ = _ := parseUrlInto_port hclean hh.1 hh.2.1 hy hread
      rw [firstWord_solid hs.2, if_pos ⟨hhost, hsuffix⟩, unsignedValue_port hlt] at heq
      refine ⟨_, heq, fun p => ⟨?_, fun hp => ?_⟩⟩
      · rintro ⟨⟩
        exact .port hh hq hlt hs
      · exact congrArg some ((UrlForm.port hh hq hlt hs).unique hp)
    | @path h s hh hs hzero hcolon hhost hsuffix =>
      have hclean : cstr (h ++ 47 :: s) = h ++ 47 :: s := cstr_of_no_nul (by simpa using hzero)
      have hy : ¬ Blank s := by
        rw [← firstWord_eq_nil, firstWord_solid hs.2]
        exact hs.1
      have hlen : h.length < size := by
        refine lt_of_le_of_lt ?_ hhost
        rw [List.takeWhile_append_of_pos (by
          intro b hb
          simp only [ne_eq, decide_eq_true_eq]
          rintro rfl
          exact hh.2.1 hb)]
        simp
      have heq := parseUrlInto_path hsize (by rwa [hclean]) hclean hh.1 hh.2.2 hy
      rw [firstWord_solid hs.2, hclean, if_pos ⟨hhost, hlen, hsuffix⟩] at heq
      refine ⟨_, heq, fun p => ⟨?_, fun hp => ?_⟩⟩
      · rintro ⟨⟩
        exact .path hh hs
      · exact congrArg some ((UrlForm.path hh hs).unique hp)
    | refused hr hform =>
      refine ⟨none, (parseUrlInto_none_iff hsize).mpr hr, fun p => ⟨fun h => ?_, fun hp => ?_⟩⟩
      · simp at h
      · exact absurd hp (hform p)

/-- A larger array takes what a smaller one does. -/
theorem Plain.mono {size' : Nat} (hle : size ≤ size') (h : Plain size r) : Plain size' r := by
  cases h with
  | port hh hq hlt hs hzero hhost hsuffix =>
    exact .port hh hq hlt hs hzero (lt_of_lt_of_le hhost hle) (lt_of_lt_of_le hsuffix hle)
  | path hh hs hzero hcolon hhost hsuffix =>
    exact .path hh hs hzero hcolon (lt_of_lt_of_le hhost hle) (lt_of_lt_of_le hsuffix hle)
  | refused hr hform =>
    exact .refused ⟨hr.noPort, hr.headless, lt_of_lt_of_le hr.colon hle,
      lt_of_lt_of_le hr.slash hle⟩ hform

end Exact

section Urls

variable {url : Bytes}

theorem rtspUrlParts_eq (url : Bytes) :
    rtspUrlParts url = if url.length < 7 then none else parseUrlInto 100 (url.drop 7) := by
  unfold rtspUrlParts parseRtspUrl
  split
  · rfl
  · cases parseUrlInto 100 (url.drop 7) with
    | none => rfl
    | some parts => cases parts <;> rfl

theorem scheme_length (h : startsWith scheme url = true) : 7 ≤ url.length := by
  exact (List.isPrefixOf_iff_prefix.mp h).length_le

/-- With the scheme, it is what stands behind it that counts. -/
theorem decomposes_scheme {result : Option (Option (Bytes × Nat × Bytes))} {size : Nat}
    (h : startsWith scheme url = true) (heq : result = parseUrlInto size (url.drop 7)) :
    Decomposes url result ↔ Takes size (url.drop 7) := by
  subst heq
  unfold Decomposes Takes HasForm
  simp only [h, true_and]

/-- Without it, nothing should be accepted. -/
theorem decomposes_no_scheme {result : Option (Option (Bytes × Nat × Bytes))}
    (h : startsWith scheme url ≠ true) : Decomposes url result ↔ result = some none := by
  unfold Decomposes HasForm
  constructor
  · rintro ⟨parts, rfl, hparts⟩
    cases parts with
    | none => rfl
    | some p => exact absurd ((hparts p).mp rfl).1 h
  · rintro rfl
    refine ⟨none, rfl, fun p => ⟨fun hp => ?_, fun hp => absurd hp.1 h⟩⟩
    simp at hp

/-- **A URL is taken apart as it should be exactly when it keeps clear of what the patterns take too
much.** Both parsers are compared with the grammar, and so with each other. What they do is left to
the meaning of `sscanf`, whose fields take as much as they can; the condition is on the URL alone,
and a URL of another scheme is one that both must refuse. -/
theorem decomposed_iff (url : Bytes) : Decomposed url ↔ Decomposable url := by
  unfold Decomposable
  by_cases hscheme : startsWith scheme url = true
  · rw [if_pos hscheme]
    have hrequest : requestUrl url = parseUrlInto 64 (url.drop 7) := if_pos hscheme
    have hrtsp : rtspUrlParts url = parseUrlInto 100 (url.drop 7) := by
      rw [rtspUrlParts_eq, if_neg (Nat.not_lt.mpr (scheme_length hscheme))]
    constructor
    · intro h
      exact (takes_iff (by omega)).mp ((decomposes_scheme hscheme hrequest).mp h.request)
    · intro hplain
      have hreq := (decomposes_scheme hscheme hrequest).mpr ((takes_iff (by omega)).mpr hplain)
      have hrts := (decomposes_scheme hscheme hrtsp).mpr
        ((takes_iff (by omega)).mpr (hplain.mono (by omega)))
      exact ⟨hreq, hrts, hreq.unique hrts⟩
  · rw [if_neg hscheme]
    have hrequest : requestUrl url = some none := if_neg hscheme
    constructor
    · intro h
      have heq := (decomposes_no_scheme hscheme).mp h.rtsp
      rw [rtspUrlParts_eq] at heq
      split at heq
      · simp at heq
      · rename_i hlen
        exact ⟨Nat.not_lt.mp hlen, (parseUrlInto_none_iff (by omega)).mp heq⟩
    · rintro ⟨hlen, hrefused⟩
      have heq : rtspUrlParts url = some none := by
        rw [rtspUrlParts_eq, if_neg (Nat.not_lt.mpr hlen)]
        exact (parseUrlInto_none_iff (by omega)).mpr hrefused
      exact ⟨(decomposes_no_scheme hscheme).mpr hrequest, (decomposes_no_scheme hscheme).mpr heq,
        hrequest.trans heq.symm⟩

/-- The colon of the path is taken for that of a port: `rtsp://h/a:80/b` has the host `h/a`. -/
theorem decomposed_colon_in_path : ¬ Decomposed (ascii "rtsp://h/a:80/b") := by
  intro h
  obtain ⟨parts, heq, hparts⟩ := h.request
  have hread : requestUrl (ascii "rtsp://h/a:80/b") =
      some (some (ascii "h/a", 80, ascii "b")) := by decide +kernel
  obtain rfl : some (ascii "h/a", 80, ascii "b") = parts := Option.some.inj (hread.symm.trans heq)
  have hform : UrlForm (ascii "h/a:80/b") (ascii "h", 554, ascii "a:80/b") :=
    UrlForm.path (h := ascii "h") (s := ascii "a:80/b") (by decide +kernel) (by decide +kernel)
  have hsome := (hparts _).mpr ⟨by decide, hform⟩
  exact absurd hsome (by decide)

end Urls

end Maixii.Xop
