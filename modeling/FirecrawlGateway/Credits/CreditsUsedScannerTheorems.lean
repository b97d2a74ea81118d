import FirecrawlGateway.Credits.CreditsUsedScanner

/-!
# Chunks and skipping do not change what the scanner sees

`push` skips over string bytes with two cached `indexOf` positions. `IsNext` says what such a
position means and `Cached` when it may still be stale; the loop keeps both positions `Cached`,
so a skip only ever crosses plain string bytes (`feed_plain`) and `push` is `feed` on the
chunk's bytes, whatever the chunks are.
-/

namespace FirecrawlGateway
namespace CreditsUsedScanner

/-! ## The byte-wise automaton -/

@[simp] lemma feed_nil (s : Scanner) : feed s [] = s := rfl

@[simp] lemma feed_cons (s : Scanner) (byte : ℕ) (bytes : List ℕ) :
    feed s (byte :: bytes) = feed (feedByte s byte) bytes := rfl

lemma feed_append (s : Scanner) (as bs : List ℕ) : feed s (as ++ bs) = feed (feed s as) bs :=
  List.foldl_append

lemma feedByte_of_found {s : Scanner} (h : s.found = true) (byte : ℕ) : feedByte s byte = s := by
  simp [feedByte, processAgain, h]

lemma feed_of_found {s : Scanner} (h : s.found = true) (bytes : List ℕ) : feed s bytes = s := by
  induction bytes with
  | nil => rfl
  | cons byte bytes ih => rw [feed_cons, feedByte_of_found h, ih]

/-- `processByte` asks for its byte again only on the way to `outside`. -/
lemma processByte_again {s : Scanner} {byte : ℕ} (h : (processByte s byte).2 = true) :
    (processByte s byte).1.state = .outside := by
  revert h
  unfold processByte
  cases s.state <;>
    simp only [processOutside, processString, processAfterKey, processAfterColon, processDigits,
      processAfterDigits] <;>
    split_ifs <;> simp

lemma processByte_outside {s : Scanner} (h : s.state = .outside) (byte : ℕ) :
    (processByte s byte).2 = false := by
  simp only [processByte, h, processOutside]
  split_ifs <;> rfl

lemma processAgain_outside {s : Scanner} (h : s.state = .outside) (byte fuel : ℕ) :
    processAgain byte (fuel + 1) s = processAgain byte 1 s := by
  have hstop := processByte_outside h byte
  unfold processAgain
  rcases hp : processByte s byte with ⟨t, again⟩
  rw [hp] at hstop
  simp only at hstop
  simp [hstop]

/-- The `while (processAgain)` loop ends by itself: no byte is processed more than twice. -/
theorem processAgain_fuel (byte : ℕ) (s : Scanner) (fuel : ℕ) :
    processAgain byte (fuel + 2) s = processAgain byte 2 s := by
  have hagain := @processByte_again s byte
  conv_lhs => unfold processAgain
  conv_rhs => unfold processAgain
  rcases hp : processByte s byte with ⟨t, again⟩
  rw [hp] at hagain
  cases again with
  | false => rfl
  | true =>
    -- the second round starts in `outside`, which never asks again
    simp only at hagain ⊢
    rw [processAgain_outside (hagain trivial) byte fuel]

/-- A byte that is processed once. -/
lemma feedByte_once {s t : Scanner} {byte : ℕ} (h : s.found = false)
    (hp : processByte s byte = (t, false)) : feedByte s byte = t := by
  simp [feedByte, processAgain, h, hp]

/-- A byte that ends a state is then processed like any byte outside. -/
lemma feedByte_again {s t : Scanner} {byte : ℕ} (h : s.found = false)
    (hp : processByte s byte = (t, true)) : feedByte s byte = feedByte t byte := by
  have hout : t.state = .outside := by
    have := @processByte_again s byte (by rw [hp])
    rwa [hp] at this
  calc feedByte s byte = processAgain byte 1 t := by
        unfold feedByte
        rw [processAgain]
        simp [h, hp]
    _ = feedByte t byte := (processAgain_outside hout byte 1).symm

/-! ## Calls of `onFound` -/

/-- `onFound` was called once, with the value that was found, or not at all. -/
def CallsMatchFound (s : Scanner) : Prop :=
  (s.found = false ∧ s.calls = []) ∨ (s.found = true ∧ ∃ v, s.calls = [v])

/-- Everything but `emitValue` leaves `found` and `calls` alone. -/
lemma updateContainerDepth_calls (s : Scanner) (byte : ℕ) :
    (updateContainerDepth s byte).found = s.found ∧
      (updateContainerDepth s byte).calls = s.calls := by
  unfold updateContainerDepth closeObject
  split_ifs <;> exact ⟨rfl, rfl⟩

lemma emitValue_callsMatchFound {s : Scanner} (h : s.found = false) (hs : CallsMatchFound s) :
    CallsMatchFound (emitValue s) := by
  have hcalls : s.calls = [] := by
    rcases hs with ⟨-, hc⟩ | ⟨hf, -⟩
    · exact hc
    · simp [h] at hf
  unfold emitValue
  split
  · exact hs
  · exact Or.inr ⟨rfl, s.value, by simp [hcalls]⟩

lemma finishDigits_callsMatchFound {s : Scanner} (byte : ℕ) (h : s.found = false)
    (hs : CallsMatchFound s) : CallsMatchFound (finishDigits s byte) := by
  obtain ⟨hfound, hcalls⟩ := updateContainerDepth_calls (emitValue s) byte
  have := emitValue_callsMatchFound h hs
  unfold CallsMatchFound finishDigits
  simp only [hfound, hcalls]
  exact this

lemma processByte_callsMatchFound {s : Scanner} (byte : ℕ) (h : s.found = false)
    (hs : CallsMatchFound s) : CallsMatchFound (processByte s byte).1 := by
  have hkeep : ∀ t : Scanner, t.found = s.found → t.calls = s.calls → CallsMatchFound t := by
    intro t hf hc
    unfold CallsMatchFound
    rw [hf, hc]
    exact hs
  have hdepth := updateContainerDepth_calls s byte
  unfold processByte
  cases s.state <;>
    simp only [processOutside, processString, processAfterKey, processAfterColon, processDigits,
      processAfterDigits, openContainer, pushDigit] <;>
    split_ifs <;>
    first
      | exact finishDigits_callsMatchFound byte h hs
      | exact hkeep _ rfl rfl
      | exact hkeep _ hdepth.1 hdepth.2

lemma feedByte_callsMatchFound {s : Scanner} (byte : ℕ) (hs : CallsMatchFound s) :
    CallsMatchFound (feedByte s byte) := by
  have hloop : ∀ fuel (t : Scanner), CallsMatchFound t → CallsMatchFound (processAgain byte fuel t) := by
    intro fuel
    induction fuel with
    | zero => exact fun t ht => ht
    | succ fuel ih =>
      intro t ht
      unfold processAgain
      by_cases hfound : t.found = true
      · simpa [hfound] using ht
      · have hnext := processByte_callsMatchFound byte (by simpa using hfound) ht
        rw [if_neg hfound]
        rcases hp : processByte t byte with ⟨t', again⟩
        rw [hp] at hnext
        cases again with
        | false => exact hnext
        | true => exact ih t' hnext
  exact hloop 2 s hs

lemma feed_callsMatchFound {s : Scanner} (bytes : List ℕ) (hs : CallsMatchFound s) :
    CallsMatchFound (feed s bytes) := by
  induction bytes generalizing s with
  | nil => exact hs
  | cons byte bytes ih => exact ih (feedByte_callsMatchFound byte hs)

/-! ## Plain string bytes -/

lemma extendCandidate_of_long {candidate : List Char} (h : maxScannedKeyLength < candidate.length)
    (bytes : List ℕ) : extendCandidate candidate bytes = candidate := by
  cases bytes with
  | nil => rfl
  | cons byte bytes => simp [extendCandidate, not_le.mpr h]

lemma extendCandidate_cons (candidate : List Char) (byte : ℕ) (bytes : List ℕ) :
    extendCandidate candidate (byte :: bytes) =
      extendCandidate (extendCandidate candidate [byte]) bytes := by
  by_cases h : candidate.length ≤ maxScannedKeyLength
  · simp [extendCandidate, h]
  · rw [extendCandidate_of_long (not_le.mp h), extendCandidate_of_long (not_le.mp h),
      extendCandidate_of_long (not_le.mp h)]

/-- Inside a string, a byte that is neither quote nor backslash only grows the candidate. -/
lemma feedByte_plain {s : Scanner} (hfound : s.found = false) (hstate : s.state = .string)
    (hesc : s.escaped = false) {byte : ℕ} (hq : byte ≠ 34) (hb : byte ≠ 92) :
    feedByte s byte = { s with candidate := extendCandidate s.candidate [byte] } := by
  have hplain : processByte s byte =
      ({ s with candidate := extendCandidate s.candidate [byte] }, false) := by
    have hstring : processByte s byte = processString s byte := by simp only [processByte, hstate]
    rw [hstring, processString, if_neg (by simp [hesc]), if_neg hb, if_neg hq]
    by_cases h : s.candidate.length ≤ maxScannedKeyLength
    · simp [h, extendCandidate]
    · rw [if_neg h, extendCandidate_of_long (not_le.mp h)]
  exact feedByte_once hfound hplain

/-- A run of plain string bytes is one skip of the fast path. -/
lemma feed_plain {s : Scanner} (hfound : s.found = false) (hstate : s.state = .string)
    (hesc : s.escaped = false) (bytes : List ℕ) (hbytes : ∀ byte ∈ bytes, byte ≠ 34 ∧ byte ≠ 92) :
    feed s bytes = { s with candidate := extendCandidate s.candidate bytes } := by
  induction bytes generalizing s with
  | nil => rfl
  | cons byte bytes ih =>
    obtain ⟨⟨hq, hb⟩, hrest⟩ := List.forall_mem_cons.mp hbytes
    rw [extendCandidate_cons, feed_cons, feedByte_plain hfound hstate hesc hq hb]
    exact ih hfound hstate hesc hrest

/-! ## Cached positions -/

/-- `next` is where `byte` is found next from `i` on (`-1`: nowhere). -/
def IsNext (chunk : List ℕ) (byte i : ℕ) (next : ℤ) : Prop :=
  (next = -1 ∧ byte ∉ chunk.drop i) ∨
    ∃ k : ℕ, next = k ∧ i ≤ k ∧ k < chunk.length ∧ byte ∉ slice chunk i k

/-- `next` is right from `i` on, or it is consumed and will be searched again. -/
def Cached (chunk : List ℕ) (byte i : ℕ) (next : ℤ) : Prop :=
  (next ≠ -1 ∧ next < i) ∨ IsNext chunk byte i next

lemma slice_eq (chunk : List ℕ) (i k : ℕ) :
    slice chunk i (i + k) = (chunk.drop i).take k := by
  rw [slice, List.drop_take, Nat.add_sub_cancel_left]

lemma isNext_indexOf (chunk : List ℕ) (byte i : ℕ) :
    IsNext chunk byte i (indexOf chunk byte i) := by
  unfold indexOf IsNext
  cases h : (chunk.drop i).findIdx? (· = byte) with
  | none =>
    left
    refine ⟨rfl, fun hmem => ?_⟩
    have := List.findIdx?_eq_none_iff.mp h byte hmem
    simp at this
  | some k =>
    -- `findIdx?` counts from `i`, the position from the start of the chunk
    right
    obtain ⟨hk, -, hbefore⟩ := List.findIdx?_eq_some_iff_getElem.mp h
    rw [List.length_drop] at hk
    refine ⟨i + k, rfl, by omega, by omega, fun hmem => ?_⟩
    rw [slice_eq] at hmem
    obtain ⟨j, hj, heq⟩ := List.mem_take_iff_getElem.mp hmem
    have := hbefore j (by omega)
    simp [heq] at this

lemma Cached.refresh {chunk : List ℕ} {byte i : ℕ} {next : ℤ} (h : Cached chunk byte i next) :
    IsNext chunk byte i (refresh chunk byte i next) := by
  unfold CreditsUsedScanner.refresh
  split
  · exact isNext_indexOf chunk byte i
  · rcases h with hstale | hnext
    · contradiction
    · exact hnext

/-- A position stays right, or becomes consumed, as the loop moves on. -/
lemma IsNext.cached {chunk : List ℕ} {byte i j : ℕ} {next : ℤ} (h : IsNext chunk byte i next)
    (hij : i ≤ j) : Cached chunk byte j next := by
  rcases h with ⟨rfl, hnone⟩ | ⟨k, rfl, hik, hk, hnone⟩
  · refine Or.inr (Or.inl ⟨rfl, fun hmem => hnone ?_⟩)
    exact (List.drop_subset_drop_left chunk hij) hmem
  · by_cases hjk : j ≤ k
    · refine Or.inr (Or.inr ⟨k, rfl, hjk, hk, fun hmem => hnone ?_⟩)
      exact (List.drop_subset_drop_left _ hij) hmem
    · exact Or.inl ⟨by omega, by omega⟩

lemma Cached.mono {chunk : List ℕ} {byte i j : ℕ} {next : ℤ} (h : Cached chunk byte i next)
    (hij : i ≤ j) : Cached chunk byte j next := by
  rcases h with ⟨hne, hlt⟩ | hnext
  · exact Or.inl ⟨hne, by omega⟩
  · exact hnext.cached hij

lemma slice_subset {chunk : List ℕ} {i j k : ℕ} (h : j ≤ k) :
    slice chunk i j ⊆ slice chunk i k := by
  unfold slice
  intro b hb
  rw [List.drop_take] at hb ⊢
  exact (List.take_subset_take_left _ (by omega)) hb

/-- The skip ends inside the chunk, and crosses neither a quote nor a backslash. -/
lemma skipEnd_spec {chunk : List ℕ} {i : ℕ} (hi : i ≤ chunk.length) {nextQuote nextBackslash : ℤ}
    (hq : IsNext chunk 34 i nextQuote) (hb : IsNext chunk 92 i nextBackslash) :
    let stop := (skipEnd chunk nextQuote nextBackslash).toNat
    i ≤ stop ∧ stop ≤ chunk.length ∧ ∀ byte ∈ slice chunk i stop, byte ≠ 34 ∧ byte ≠ 92 := by
  -- a position that is nowhere is as good as one at the end of the chunk
  have key : ∀ {byte : ℕ} {next : ℤ}, IsNext chunk byte i next →
      ∃ k : ℕ, (if next = -1 then (chunk.length : ℤ) else next) = k ∧ i ≤ k ∧ k ≤ chunk.length ∧
        byte ∉ slice chunk i k := by
    intro byte next h
    rcases h with ⟨rfl, hnone⟩ | ⟨k, rfl, hik, hk, hnone⟩
    · refine ⟨chunk.length, by simp, hi, le_refl _, ?_⟩
      rwa [slice, List.take_length]
    · exact ⟨k, if_neg (by omega), hik, hk.le, hnone⟩
  obtain ⟨kq, hkq, hiq, hlq, hnq⟩ := key hq
  obtain ⟨kb, hkb, hib, hlb, hnb⟩ := key hb
  have hstop : (skipEnd chunk nextQuote nextBackslash).toNat = min kq kb := by
    unfold skipEnd
    simp only [hkq]
    by_cases hnone : nextBackslash = -1
    · rw [if_pos hnone] at hkb
      rw [if_neg (by omega)]
      omega
    · rw [if_neg hnone] at hkb
      split_ifs <;> omega
  simp only [hstop]
  refine ⟨by omega, by omega, fun byte hbyte => ⟨?_, ?_⟩⟩
  · rintro rfl
    exact hnq (slice_subset (min_le_left _ _) hbyte)
  · rintro rfl
    exact hnb (slice_subset (min_le_right _ _) hbyte)

/-! ## The chunk loop -/

lemma feed_drop_eq (s : Scanner) {chunk : List ℕ} {i stop : ℕ} (h : i ≤ stop) :
    feed s (chunk.drop i) = feed (feed s (slice chunk i stop)) (chunk.drop stop) := by
  rw [← feed_append]
  obtain ⟨k, rfl⟩ := Nat.exists_eq_add_of_le h
  rw [slice_eq, ← List.drop_drop, List.take_append_drop]

/-- The loop is the byte-wise automaton on the rest of the chunk, as long as its cached
positions are right or stale and it has a round of fuel for each byte. -/
lemma pushLoop_eq_feed (chunk : List ℕ) (fuel : ℕ) {s : Scanner} {i : ℕ}
    {nextQuote nextBackslash : ℤ} (hfuel : chunk.length ≤ i + fuel) (hfound : s.found = false)
    (hq : Cached chunk 34 i nextQuote) (hb : Cached chunk 92 i nextBackslash) :
    pushLoop chunk fuel s i nextQuote nextBackslash = feed s (chunk.drop i) := by
  induction fuel generalizing s i nextQuote nextBackslash with
  | zero =>
    rw [List.drop_eq_nil_of_le (by omega)]
    rfl
  | succ fuel ih =>
    -- one byte through the automaton, then the rest of the loop
    have hround : ∀ (t : Scanner) (j : ℕ) (nq nb : ℤ) (hj : j < chunk.length), i ≤ j →
        t.found = false → Cached chunk 34 (j + 1) nq → Cached chunk 92 (j + 1) nb →
        (if (feedByte t chunk[j]).found then feedByte t chunk[j]
          else pushLoop chunk fuel (feedByte t chunk[j]) (j + 1) nq nb) =
          feed t (chunk.drop j) := by
      intro t j nq nb hj hij ht hnq hnb
      rw [List.drop_eq_getElem_cons hj, feed_cons]
      by_cases hfin : (feedByte t chunk[j]).found = true
      · rw [if_pos hfin, feed_of_found hfin]
      · rw [if_neg hfin, ih (by omega) (by simpa using hfin) hnq hnb]
    unfold pushLoop
    by_cases hi : i < chunk.length
    · rw [if_pos hi]
      by_cases hskip : s.state = .string ∧ s.escaped = false
      · -- the fast path: skip the plain string bytes, then one byte
        rw [if_pos hskip]
        have hnq := hq.refresh
        have hnb := hb.refresh
        obtain ⟨hle, hstop, hplain⟩ := skipEnd_spec hi.le hnq hnb
        rw [feed_drop_eq s hle, feed_plain hfound hskip.1 hskip.2 _ hplain]
        dsimp only
        generalize (skipEnd chunk (refresh chunk 34 i nextQuote)
          (refresh chunk 92 i nextBackslash)).toNat = stop at hle hstop ⊢
        by_cases hlt : stop < chunk.length
        · rw [List.getElem?_eq_getElem hlt]
          exact hround _ _ _ _ hlt hle hfound (hnq.cached (by omega)) (hnb.cached (by omega))
        · -- the rest of the chunk is inside the string
          rw [List.getElem?_eq_none (by omega), List.drop_eq_nil_of_le (by omega)]
          rfl
      · -- the positions were not refreshed, but stay right or become stale
        rw [if_neg hskip, List.getElem?_eq_getElem hi]
        exact hround s i _ _ hi le_rfl hfound (hq.mono (by omega)) (hb.mono (by omega))
    · rw [if_neg hi, List.drop_eq_nil_of_le (by omega)]
      rfl

/-- One chunk is its bytes, one at a time. -/
theorem push_eq_feed (s : Scanner) (chunk : List UInt8) :
    push s chunk = feed s (chunk.map UInt8.toNat) := by
  unfold push
  by_cases hfound : s.found = true
  · rw [if_pos hfound, feed_of_found hfound]
  · rw [if_neg hfound]
    have hstale : ∀ byte, Cached (chunk.map UInt8.toNat) byte 0 (-2) :=
      fun byte => Or.inl ⟨by omega, by omega⟩
    exact pushLoop_eq_feed _ _ (by omega) (by simpa using hfound) (hstale 34) (hstale 92)

/-- Chunk after chunk is the whole byte sequence, one byte at a time. -/
theorem foldl_push_eq_feed (s : Scanner) (chunks : List (List UInt8)) :
    chunks.foldl push s = feed s (chunks.flatten.map UInt8.toNat) := by
  induction chunks generalizing s with
  | nil => rfl
  | cons chunk chunks ih =>
    rw [List.foldl_cons, push_eq_feed, ih, List.flatten_cons, List.map_append, feed_append]

lemma observeCreditsUsedStream_eq (chunks : List (List UInt8)) :
    observeCreditsUsedStream chunks = (chunks, (chunks.foldl push {}).calls) := by
  have hfold : ∀ (enqueued : List (List UInt8)) (scanner : Scanner),
      chunks.foldl (fun (p : List (List UInt8) × Scanner) chunk =>
        (p.1 ++ [chunk], push p.2 chunk)) (enqueued, scanner) =
        (enqueued ++ chunks, chunks.foldl push scanner) := by
    induction chunks with
    | nil => simp
    | cons chunk chunks ih =>
      intro enqueued scanner
      rw [List.foldl_cons, ih, List.append_assoc]
      rfl
  unfold observeCreditsUsedStream
  have := hfold [] {}
  simp only [List.nil_append] at this
  simp only [this]

lemma callsMatchFound_fresh_feed (bytes : List ℕ) : CallsMatchFound (feed {} bytes) :=
  feed_callsMatchFound bytes (Or.inl ⟨rfl, rfl⟩)

lemma CallsMatchFound.toList_getLast? {s : Scanner} (h : CallsMatchFound s) :
    s.calls.getLast?.toList = s.calls := by
  rcases h with ⟨-, hc⟩ | ⟨-, v, hc⟩ <;> simp [hc]

/-- **Chunking is invisible.** However the bytes are cut, the scanner ends in the state of the
byte-wise automaton, has called `onFound` at most once and with the same value, and the stream
observer reports what `extractCreditsUsed` finds in the whole body. -/
theorem push_chunks_eq_bytewise (chunks : List (List UInt8)) :
    chunks.foldl push {} = feed {} (chunks.flatten.map UInt8.toNat) ∧
    (chunks.foldl push {}).calls.length ≤ 1 ∧
    observeCreditsUsedStream chunks = (chunks, (extractCreditsUsed chunks.flatten).toList) := by
  have hfold := foldl_push_eq_feed {} chunks
  have hcalls := callsMatchFound_fresh_feed (chunks.flatten.map UInt8.toNat)
  refine ⟨hfold, ?_, ?_⟩
  · rw [hfold]
    rcases hcalls with ⟨-, hc⟩ | ⟨-, v, hc⟩ <;> rw [hc] <;> simp
  · rw [observeCreditsUsedStream_eq, hfold, extractCreditsUsed, push_eq_feed,
      hcalls.toList_getLast?]

end CreditsUsedScanner
end FirecrawlGateway
