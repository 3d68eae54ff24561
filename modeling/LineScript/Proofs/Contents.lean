import LineScript.Proofs.Reading
import LineScript.Source.FileSystem

/-!
# Files that hold bytes

Reading line by line decodes every line on its own, reading a whole file decodes all of it. Both
give the same text, because no character but the line feed has the byte of a line feed in its
encoding: cutting commutes with encoding.

* `decodeUtf8_eq_some_iff`: decoding undoes encoding, and nothing else decodes.
* `Stream.ofBytes_encodeUtf8`: the lines of encoded text are the lines of the text.
* `FileSystem.textual_ofContents`: a stored file that is read without an error is text.
-/

namespace LineScript

/-! ## Encoded text -/

/-- Decoding undoes encoding, and nothing else decodes. -/
theorem decodeUtf8_eq_some_iff {bytes : Bytes} {t : Text} :
    decodeUtf8 bytes = some t ↔ bytes = encodeUtf8 t := by
  have hbytes : ByteArray.mk bytes.toArray = bytes.toByteArray := by
    refine ByteArray.ext ?_
    rw [List.data_toByteArray]
  rw [decodeUtf8, hbytes]
  constructor
  · intro h
    obtain ⟨chars, hchars, rfl⟩ := Option.map_eq_some_iff.mp h
    have hencode := ByteArray.utf8Encode_get_utf8Decode? (b := bytes.toByteArray)
      (h := by rw [hchars]; rfl)
    have hget : bytes.toByteArray.utf8Decode?.get (by rw [hchars]; rfl) = chars := by
      simp only [hchars, Option.get_some]
    rw [hget] at hencode
    have hlists := congrArg (·.data.toList) hencode
    simp only [List.utf8Encode, List.toList_data_toByteArray] at hlists
    exact hlists.symm
  · rintro rfl
    show ((encodeUtf8 t).toByteArray.utf8Decode?).map Array.toList = some t
    rw [show (encodeUtf8 t).toByteArray = t.utf8Encode from rfl, List.utf8Decode?_utf8Encode]
    rfl

/-- A line is text if its bytes are the encoding of that text. -/
theorem Line.ofBytes_eq_text_iff {bytes : Bytes} {l : Text} :
    Line.ofBytes bytes = .text l ↔ bytes = encodeUtf8 l := by
  rw [← decodeUtf8_eq_some_iff, Line.ofBytes]
  cases decodeUtf8 bytes with
  | none => simp
  | some chars => simp

/-- Only the character of an ASCII byte has that byte in its encoding. -/
theorem byte_not_mem_utf8EncodeChar {c : Char} {b : UInt8} (hb : b.toNat < 128)
    (hc : c.val.toNat ≠ b.toNat) : b ∉ String.utf8EncodeChar c := by
  have hbyte : ∀ n : Nat, n < 256 → n ≠ b.toNat → b ≠ UInt8.ofNat n := by
    intro n hlt hne heq
    have hnat := congrArg UInt8.toNat heq
    rw [UInt8.toNat_ofNat_of_lt' hlt] at hnat
    exact hne hnat.symm
  intro hmem
  rw [String.utf8EncodeChar] at hmem
  -- all bytes of a longer encoding are 128 or more
  split at hmem
  · rw [List.mem_singleton] at hmem
    exact hbyte _ (by omega) hc hmem
  · split at hmem
    · simp only [List.mem_cons, List.not_mem_nil, or_false] at hmem
      rcases hmem with h | h <;> exact hbyte _ (by omega) (by omega) h
    · split at hmem
      · simp only [List.mem_cons, List.not_mem_nil, or_false] at hmem
        rcases hmem with h | h | h <;> exact hbyte _ (by omega) (by omega) h
      · simp only [List.mem_cons, List.not_mem_nil, or_false] at hmem
        rcases hmem with h | h | h | h <;> exact hbyte _ (by omega) (by omega) h

/-- Only a line feed is encoded with the byte of a line feed. -/
theorem newlineByte_not_mem_utf8EncodeChar {c : Char} (hc : c ≠ '\n') :
    newlineByte ∉ String.utf8EncodeChar c := by
  refine byte_not_mem_utf8EncodeChar (by decide) ?_
  intro heq
  exact hc (Char.ext (UInt32.toNat_inj.mp heq))

/-- Text starts with an ASCII character if its encoding starts with the byte of that character. -/
theorem head?_encodeUtf8_iff {a : Char} (ha : a.val.toNat < 128) (t : Text) :
    (encodeUtf8 t).head? = some (UInt8.ofNat a.val.toNat) ↔ t.head? = some a := by
  cases t with
  | nil => simp [encodeUtf8]
  | cons c t =>
      have hbyte : (UInt8.ofNat a.val.toNat).toNat = a.val.toNat :=
        UInt8.toNat_ofNat_of_lt' (Nat.lt_trans ha (by decide))
      have hhead : (encodeUtf8 (c :: t)).head? = (String.utf8EncodeChar c).head? := by
        obtain ⟨b, bs, hbytes⟩ :=
          List.exists_cons_of_ne_nil (String.utf8EncodeChar_ne_nil (c := c))
        rw [encodeUtf8, List.flatMap_cons, hbytes]
        rfl
      rw [hhead, List.head?_cons, Option.some.injEq]
      constructor
      · intro h
        by_cases heq : c.val.toNat = a.val.toNat
        · exact Char.ext (UInt32.toNat_inj.mp heq)
        · refine absurd (List.mem_of_mem_head? h) (byte_not_mem_utf8EncodeChar ?_ ?_)
          · rw [hbyte]; exact ha
          · rw [hbyte]; exact heq
      · rintro rfl
        rw [String.utf8EncodeChar, if_pos (Nat.le_of_lt_succ ha)]
        rfl

/-- Cutting encoded text is encoding its lines. -/
theorem pieces_encodeUtf8 (t : Text) :
    Text.pieces newlineByte (encodeUtf8 t) = (Text.physicalLines t).map encodeUtf8 := by
  induction t with
  | nil => rfl
  | cons c t ih =>
      have hcons : encodeUtf8 (c :: t) = String.utf8EncodeChar c ++ encodeUtf8 t :=
        List.flatMap_cons
      rw [hcons, Text.physicalLines, Text.pieces]
      by_cases hc : c = '\n'
      · subst hc
        have hnewline : String.utf8EncodeChar '\n' = [newlineByte] := rfl
        rw [if_pos rfl, hnewline, List.singleton_append, Text.pieces, if_pos rfl, ih]
        rfl
      · rw [if_neg hc, Text.pieces_append String.utf8EncodeChar_ne_nil
          (newlineByte_not_mem_utf8EncodeChar hc), ih, Text.physicalLines]
        cases Text.pieces '\n' t with
        | nil => simp [encodeUtf8]
        | cons p ps => simp [encodeUtf8]

/-- The lines of encoded text are the lines of the text. -/
theorem Stream.ofBytes_encodeUtf8 (t : Text) :
    Stream.ofBytes (encodeUtf8 t) none = Stream.ofText t := by
  show (Text.pieces newlineByte (encodeUtf8 t)).map Line.ofBytes = _
  rw [pieces_encodeUtf8, List.map_map]
  refine List.map_congr_left ?_
  intro l _
  exact Line.ofBytes_eq_text_iff.mpr rfl

/-! ## Streams that are text -/

/-- Continuation lines that are taken are text. -/
theorem readContinuation_eq_ok {n : Nat} {s : Stream} {tail : Text}
    (h : (readContinuation n s).result = .ok tail) :
    ∃ ls : List Text, s = ls.map .text ++ (readContinuation n s).ahead := by
  induction s generalizing n tail with
  | nil => exact ⟨[], rfl⟩
  | cons l ahead ih =>
      rw [readContinuation] at h ⊢
      split at h
      · cases h
      · exact ⟨[], rfl⟩
      · cases l with
        | text chars =>
            cases hmore : (readContinuation (n + 1) ahead).result with
            | error error =>
                simp only [Line.read, hmore] at h
                cases h
            | ok more =>
                obtain ⟨ls, hls⟩ := ih hmore
                exact ⟨chars :: ls, congrArg (Line.text chars :: ·) hls⟩
        | undecodable tab => cases h
        | broken tab error => cases h
        | failure error => cases h

/-- So are the lines of an expression, and at the end nothing is left. -/
theorem readExpression_eq_ok {n : Nat} {comment : Text} {s : Stream} {found : Option Expression}
    (h : (readExpression n comment s).result = .ok found) :
    (∃ ls : List Text, s = ls.map .text ++ (readExpression n comment s).ahead) ∧
      (found = none → (readExpression n comment s).ahead = []) := by
  induction s generalizing n comment with
  | nil =>
      rw [readExpression]
      split
      · exact ⟨⟨[], rfl⟩, fun _ => rfl⟩
      · exact ⟨⟨[], rfl⟩, fun _ => rfl⟩
  | cons l ahead ih =>
      cases l with
      | text chars =>
          rw [readExpression] at h ⊢
          simp only [Line.read] at h ⊢
          split at h
          · obtain rfl := Except.ok.inj h
            exact ⟨⟨[chars], rfl⟩, fun hnone => by cases hnone⟩
          · obtain ⟨⟨ls, hls⟩, hend⟩ := ih h
            exact ⟨⟨chars :: ls, congrArg (Line.text chars :: ·) hls⟩, hend⟩
          · cases h
          · cases h
          · cases hmore : (readContinuation (n + 1) ahead).result with
            | error error => rw [hmore] at h; cases h
            | ok more =>
                rw [hmore] at h
                obtain rfl := Except.ok.inj h
                obtain ⟨ls, hls⟩ := readContinuation_eq_ok hmore
                refine ⟨⟨chars :: ls, congrArg (Line.text chars :: ·) hls⟩, ?_⟩
                intro hnone
                cases hnone
      | undecodable tab => cases h
      | broken tab error => cases h
      | failure error => cases h

/-- A stream that is read without an error is text. -/
theorem readFrom_eq_none {n : Nat} {s : Stream} (h : (readFrom n s).2 = none) :
    ∃ ls : List Text, s = ls.map .text := by
  fun_induction readFrom n s with
  | case1 n => exact ⟨[], rfl⟩
  | case2 n l rest step error hread => cases h
  | case3 n l rest step hread =>
      obtain ⟨⟨ls, hls⟩, hend⟩ := readExpression_eq_ok hread
      rw [hend rfl, List.append_nil] at hls
      exact ⟨ls, hls⟩
  | case4 n l rest step e hread more ih =>
      obtain ⟨⟨ls, hls⟩, -⟩ := readExpression_eq_ok hread
      obtain ⟨others, hothers⟩ := ih h
      refine ⟨ls ++ others, ?_⟩
      rw [List.map_append, ← hothers]
      exact hls

/-- Bytes that decode line by line are the encoding of the lines together. -/
theorem flatten_eq_encodeUtf8 {ps : List Bytes} {ls : List Text}
    (h : ps.map Line.ofBytes = ls.map .text) : ps.flatten = encodeUtf8 ls.flatten := by
  induction ps generalizing ls with
  | nil =>
      rw [List.map_eq_nil_iff.mp (show ls.map Line.text = [] from h.symm)]
      rfl
  | cons p ps ih =>
      cases ls with
      | nil => cases h
      | cons l ls =>
          obtain ⟨hfirst, hrest⟩ := List.cons.inj h
          rw [List.flatten_cons, ih hrest, Line.ofBytes_eq_text_iff.mp hfirst, List.flatten_cons]
          exact List.flatMap_append.symm

/-- Stored bytes whose lines are text hold that text. -/
theorem Stream.ofBytes_eq_ofText {bytes : Bytes} {ls : List Text}
    (h : Stream.ofBytes bytes none = ls.map .text) :
    Stream.ofBytes bytes none = Stream.ofText ls.flatten := by
  have hbytes : bytes = encodeUtf8 ls.flatten := by
    rw [← flatten_eq_encodeUtf8 h, Text.flatten_pieces]
  rw [hbytes, Stream.ofBytes_encodeUtf8]

/-- A stream of text lines as one text. -/
theorem Stream.wholeText_map_text (ls : List Text) :
    Stream.wholeText (ls.map .text) = .ok ls.flatten := by
  have hfind : ∀ f : Line → Option AccessError, (∀ chars, f (.text chars) = none) →
      (ls.map Line.text).findSome? f = none := by
    intro f hf
    rw [List.findSome?_eq_none_iff]
    intro l hl
    obtain ⟨chars, -, rfl⟩ := List.mem_map.mp hl
    exact hf chars
  have hmap : ∀ f : Line → Option Text, (∀ chars, f (.text chars) = some chars) →
      (ls.map Line.text).mapM f = some ls := by
    intro f hf
    have htext : f ∘ Line.text = fun chars => pure (id chars) := funext hf
    rw [List.mapM_map, htext, List.mapM_pure, List.map_id]
    rfl
  rw [Stream.wholeText, hfind _ (fun _ => rfl), hmap _ (fun _ => rfl)]

/-! ## Stored files -/

namespace FileSystem

/-- The file system that holds these contents under their names; a later entry replaces an
    earlier one. -/
def ofContents (files : List (Text × Bytes)) : FileSystem :=
  .ofList (files.map fun (name, bytes) => (name, .ok (.ofBytes bytes none)))

/-- What is stored opens as its lines. -/
theorem access_ofContents {files : List (Text × Bytes)} {name : Text} {s : Stream}
    (h : (ofContents files).access name = .ok s) : ∃ bytes, s = .ofBytes bytes none := by
  rw [access] at h
  split at h
  · rename_i stored hfind
    have hmem := List.mem_reverse.mp (List.mem_of_find?_eq_some hfind)
    obtain ⟨⟨name', bytes⟩, -, heq⟩ := List.mem_map.mp hmem
    refine ⟨bytes, ?_⟩
    rw [← (Prod.mk.inj heq).2] at h
    exact (Except.ok.inj h).symm
  · cases h

/-- One more text replaces what was stored under its name, and nothing else. -/
theorem access_ofContents_concat (files : List (Text × Bytes)) (name text : Text) :
    (ofContents (files ++ [(name, encodeUtf8 text)])).access name = .ok (Stream.ofText text) ∧
      ∀ other, other ∉ [name] → (ofContents files).access other =
        (ofContents (files ++ [(name, encodeUtf8 text)])).access other := by
  have hfirst : (ofContents (files ++ [(name, encodeUtf8 text)])).files =
      (name, .ok (Stream.ofText text)) :: (ofContents files).files := by
    simp [ofContents, ofList, Stream.ofBytes_encodeUtf8]
  constructor
  · rw [access, hfirst, List.find?_cons_of_pos (by simp)]
  · intro other hother
    have hname : name ≠ other := fun heq => hother (List.mem_singleton.mpr heq.symm)
    rw [access, access, hfirst, List.find?_cons_of_neg (by simpa using hname)]
    rfl

/-- What is read line by line without an error is also read as a whole, and is the same text. -/
def Textual (fs : FileSystem) : Prop :=
  ∀ name s, fs.access name = .ok s → (readAll s).2 = none →
    ∃ text, fs.readText name = .ok text ∧ Stream.ofText text = s

/-- Stored bytes are the same text either way. -/
theorem textual_ofContents (files : List (Text × Bytes)) : (ofContents files).Textual := by
  intro name s haccess hread
  obtain ⟨bytes, rfl⟩ := access_ofContents haccess
  obtain ⟨ls, hls⟩ := readFrom_eq_none hread
  refine ⟨ls.flatten, ?_, (Stream.ofBytes_eq_ofText hls).symm⟩
  rw [readText, haccess]
  show Stream.wholeText (Stream.ofBytes bytes none) = _
  rw [hls, Stream.wholeText_map_text]

end FileSystem

end LineScript
