import LineScript.Proofs.Reached

/-!
# Scripts without directives

A script that defines and splices nothing stands for itself: its run gives the expressions of the
file as they are read, and ends or fails where the reading does. As long as no directive was met
a run is nothing but its reader, so the two are compared read by read.

* `Expander.verbatim`: the run that is its reader.
* `Expander.read_verbatim_some` to `Expander.read_verbatim_error`: what each outcome of the reader
  is for the run.
* `Expander.drain_verbatim`: the whole run.
-/

namespace LineScript

namespace Expander

variable {fs : FileSystem} {o : Options} {script : Text} {r r' : Reader} {raw : Expression}

/-- A run that has met no directive: nothing is registered or called, no result waits, and the
    script is the only file. -/
def verbatim (fs : FileSystem) (o : Options) (script : Text) (r : Reader) : Expander :=
  { fs, options := o, files := [⟨script, r⟩], includes := ⟨[script]⟩ }

/-- With no templates a command of a file is its own expansion. -/
theorem execute_verbatim {e : Expanded} (hstack : e.stack = []) (hdefine : e.name ≠ defineWord)
    (hinclude : e.name ≠ includeWord) :
    (verbatim fs o script r).execute e = (.ok [e], verbatim fs o script r) := by
  have hplain : expandFileCommand (verbatim fs o script r).templates e
      (verbatim fs o script r).calls = (.ok [e], (verbatim fs o script r).calls) := by
    rw [expandFileCommand, expandCommand]
    split
    · rfl
    · obtain ⟨raw, file, stack⟩ := e
      obtain rfl : stack = [] := hstack
      rfl
  rw [execute, if_neg hdefine, if_neg hinclude, hplain]

/-- An expression that is no directive is handed out, and nothing else changes. -/
theorem read_verbatim_some (hread : r.read = (.ok (some raw), r'))
    (hdefine : raw.name ≠ defineWord) (hinclude : raw.name ≠ includeWord) :
    (verbatim fs o script r).read =
      (.ok (some (.ofExpression raw (o.displayPath script))), verbatim fs o script r') := by
  have hexec : (verbatim fs o script r').execute (.ofExpression raw (o.displayPath script)) =
      (.ok [.ofExpression raw (o.displayPath script)], verbatim fs o script r') :=
    execute_verbatim rfl hdefine hinclude
  exact reads_iff.mp (.give rfl
    (.carryOut rfl rfl hread (executes_iff.mpr hexec) (.handOut rfl)))

/-- At the end of the script the run ends. -/
theorem read_verbatim_none (hread : r.read = (.ok none, r')) :
    (verbatim fs o script r).read =
      (.ok none, { fs, options := o, status := .finished }) :=
  reads_iff.mp (.finish rfl (.leave rfl rfl hread (.finish rfl rfl)))

/-- A line that cannot be read makes the run fail, at that line of the script. -/
theorem read_verbatim_error {error : SyntaxError} (hread : r.read = (.error error, r')) :
    (verbatim fs o script r).read =
      (.error (.ofSyntax (o.displayPath script) error),
        { verbatim fs o script r' with
          status := .poisoned (.ofSyntax (o.displayPath script) error) }) := by
  have hfiles : (verbatim fs o script r).files = [⟨script, r⟩] := rfl
  exact reads_iff.mp (.fail rfl (.malformed rfl hfiles hread))

/-- Reading on gives what the reader gives, and ends or fails as it does. -/
theorem drain_verbatim_eq (fs : FileSystem) (o : Options) (script : Text)
    (hplain : ∀ raw ∈ r.drain.1, raw.name ≠ defineWord ∧ raw.name ≠ includeWord) :
    (verbatim fs o script r).drain.1 =
        r.drain.1.map (Expanded.ofExpression · (o.displayPath script)) ∧
      (verbatim fs o script r).drain.2.1 =
        r.drain.2.1.map (ExpansionError.ofSyntax (o.displayPath script)) := by
  -- the induction is on the reads of the reader, of which every one is a read of the run
  fun_induction Reader.drain r with
  | case1 r r' hread =>
      rw [drain, read_verbatim_none hread]
      exact ⟨rfl, rfl⟩
  | case2 r error r' hread =>
      rw [drain, read_verbatim_error hread]
      exact ⟨rfl, rfl⟩
  | case3 r raw r' hread raws error last hdrain ih =>
      obtain ⟨hdefine, hinclude⟩ := hplain raw List.mem_cons_self
      rw [hdrain] at ih
      obtain ⟨hresults, herror⟩ :=
        ih fun raw hraw => hplain raw (List.mem_cons_of_mem _ hraw)
      rw [drain, read_verbatim_some hread hdefine hinclude]
      exact ⟨congrArg (_ :: ·) hresults, herror⟩

/-- Without directives expansion is reading: if no expression that is read from a script up to its
    end or the line that cannot be read defines or splices, then the run gives exactly these
    expressions in order, as lines of the script outside every call, and then ends if the reading
    ended and fails if it failed, with the message and the failure of the file layer that the
    reading gave, at that line of the script. -/
theorem drain_verbatim {stream : Stream} (haccess : fs.access script = .ok stream)
    (hplain : ∀ raw ∈ (Reader.ofStream stream).drain.1,
      raw.name ≠ defineWord ∧ raw.name ≠ includeWord) :
    let run := (start fs o script).drain
    let reading := (Reader.ofStream stream).drain
    run.1.map (·.toExpression) = reading.1 ∧
      (∀ e ∈ run.1, e.file = o.displayPath script ∧ e.stack = []) ∧
      run.2.1 = reading.2.1.map (fun error =>
        ⟨{ line := error.line, file := o.displayPath script },
          .grammar error.flaw.message error.flaw.access⟩) ∧
      run.2.2.status = (match run.2.1 with
        | none => .finished
        | some error => .poisoned error) := by
  obtain ⟨hresults, herror⟩ := drain_verbatim_eq fs o script hplain
  have hstart : start fs o script = verbatim fs o script (.ofStream stream) :=
    start_of_access haccess
  rw [hstart]
  refine ⟨?_, ?_, herror, ?_⟩
  · rw [hresults, List.map_map]
    exact List.map_id _
  · intro e he
    rw [hresults] at he
    obtain ⟨raw, -, rfl⟩ := List.mem_map.mp he
    exact ⟨rfl, rfl⟩
  · cases hends : (verbatim fs o script (.ofStream stream)).drain.2.1 with
    | none => exact (finished_iff_error_eq_none _).mpr hends
    | some error => exact poisoned_of_error_eq_some hends

/-- The second line of a command is cut off behind its tab: of the two commands the first one is
    given, with the comment above it, and the failure is that of the line with the tab. -/
theorem drain_verbatim_cut :
    let bytes := encodeUtf8 "# one\nsay 1\n\nsay 2\n\t".toList
    let fault : AccessError := ⟨.other, "read failed"⟩
    let fs : FileSystem := { files := [(['m'], .ok (.ofBytes bytes (some fault)))] }
    let run := (start fs {} ['m']).drain
    (∀ raw ∈ (Reader.ofStream (.ofBytes bytes (some fault))).drain.1,
        raw.name ≠ defineWord ∧ raw.name ≠ includeWord) ∧
      run.1.map (·.toExpression) =
        [⟨2, "# one\n".toList, "say".toList, ['1']⟩, ⟨3, [], [], []⟩] ∧
      run.2.1 = some ⟨{ line := 5, file := ['m'] },
        .grammar (Flaw.unreadable fault).message (some fault)⟩ := by
  intro bytes fault
  have hread : readAll (.ofBytes bytes (some fault)) =
      ([⟨2, "# one\n".toList, "say".toList, ['1']⟩, ⟨3, [], [], []⟩],
        some ⟨5, .unreadable fault⟩) := by
    decide +kernel
  clear_value bytes
  intro fs run
  have haccess : fs.access ['m'] = .ok (.ofBytes bytes (some fault)) := rfl
  have hreading := Reader.drain_eq_rest (r := .ofStream (.ofBytes bytes (some fault))) rfl
  rw [Reader.rest_ofStream, hread] at hreading
  obtain ⟨hexpressions, hstops⟩ := Prod.mk.inj hreading
  have hplain : ∀ raw ∈ (Reader.ofStream (.ofBytes bytes (some fault))).drain.1,
      raw.name ≠ defineWord ∧ raw.name ≠ includeWord := by
    rw [hexpressions]
    decide +kernel
  obtain ⟨hresults, -, herror, -⟩ := drain_verbatim (o := {}) haccess hplain
  rw [hexpressions] at hresults
  rw [hstops] at herror
  exact ⟨hplain, hresults, herror⟩

end Expander

end LineScript
