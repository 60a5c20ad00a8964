import PortableActions.Proofs.Invocation.Cleanup
import PortableActions.Proofs.Text.Decoding
import PortableActions.Proofs.Text.LineEnds
-- What a started shell writes and what is printed of it. The text is decoded once and handed on
-- a line at a time; only its line ends are written anew, and the last line is given one.
namespace PortableActions.Invocation

variable {launch : Launcher} {platform : Platform} {command : Text} {session : Session} {child : Child}

theorem printed_decoded {written : List UInt8} {read : Text} (decodes : Text.Decodes written read) :
    printed written = Text.endLast (Text.unifyEnds read) := by
  rw [printed, Text.decodes_exact.mp decodes, Text.printLines_exact, Text.foldLineEnds_exact]

theorem withoutEnds_printed (read : Text) :
    Text.withoutEnds (Text.endLast (Text.unifyEnds read)) = Text.withoutEnds read := by
  rw [Text.withoutEnds_endLast, ← Text.foldLineEnds_exact, Text.withoutEnds_fold]

theorem runShell_started (started : Starts launch platform command session.host child) :
    runShell launch platform command session = .ok child.code
      ⟨{ session.host with disk := child.disk }, session.output ++ printed child.written⟩ := by
  cases runShell_cases launch platform command session with
  | inl unstarted =>
    obtain ⟨_, _, none_⟩ := unstarted
    exact absurd started (none_ child)
  | inr ran =>
    obtain ⟨other, again, result⟩ := ran
    have same : child = other := Except.ok.inj (started.2.symm.trans again.2)
    rw [same]
    exact result

-- Whatever the child writes reads as one text, and that text is printed with a line feed for each
-- line end and behind its last line. No other character is dropped or taken for a line end.
theorem runShell_streams (started : Starts launch platform command session.host child) :
    ∃ read after, (∀ other, Text.Decodes child.written other ↔ other = read) ∧
      runShell launch platform command session = .ok child.code after ∧
      after.output = session.output ++ Text.endLast (Text.unifyEnds read) ∧
      Text.withoutEnds (Text.endLast (Text.unifyEnds read)) = Text.withoutEnds read := by
  have decodes : Text.Decodes child.written (Text.ofUtf8 child.written) := Text.decodes_exact.mpr rfl
  refine ⟨Text.ofUtf8 child.written, _, ?_, runShell_started started, ?_, withoutEnds_printed _⟩
  · intro other
    rw [Text.decodes_exact, eq_comm]
  · rw [printed_decoded decodes]

-- A blank and a form feed in front of line ends, two carriage returns, a sequence that breaks
-- off, two separators of other kinds, and no end.
def mixed : List UInt8 :=
  [0x61, 0x20, 0x0D, 0x0A, 0x0C, 0x0D, 0x0D, 0x62, 0xE2, 0x82, 0x0A, 0xC2, 0x85, 0xE2, 0x80, 0xA8, 0x20]

def writesMixed : Launcher := fun _ _ disk => .ok ⟨3, mixed, disk⟩

theorem runShell_streams_mixed :
    Starts writesMixed narrow [] scopeInTmp.host ⟨3, mixed, scopeInTmp.host.disk⟩ ∧
    (∃ read after, (∀ other, Text.Decodes mixed other ↔ other = read) ∧
      runShell writesMixed narrow [] ⟨scopeInTmp.host, []⟩ = .ok 3 after ∧
      after.output = [] ++ Text.endLast (Text.unifyEnds read) ∧
      Text.withoutEnds (Text.endLast (Text.unifyEnds read)) = Text.withoutEnds read) ∧
    (stateAfter (runShell writesMixed narrow [] ⟨scopeInTmp.host, []⟩)).output =
      "a \n\x0C\n\nb\ufffd\n\u0085\u2028 \n".toList := by
  have started : Starts writesMixed narrow [] scopeInTmp.host ⟨3, mixed, scopeInTmp.host.disk⟩ := ⟨by simp, rfl⟩
  have streams := @runShell_streams _ _ _ ⟨scopeInTmp.host, []⟩ _ started
  exact ⟨started, streams, by decide +kernel⟩

end PortableActions.Invocation
