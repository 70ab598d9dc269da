import ClassLoading.Proofs.Limits
import ClassLoading.Proofs.Prefixes

/-!
# Truncated class files

A truncation tells where the read stood that found too little, how much it needed and how much there
was. It needed more than there was, up to the very end; more bytes count towards what is missing and
change nothing else until all of it is there, and no class is shorter than that
(`Class.decode_truncated`). Limits have no part in it: a class that was cut short is told so under
limits only where it is told so without them.
-/

namespace ClassLoading.Class

variable {limits : Limits} {bytes : List UInt8} {offset needed available : Nat}

theorem stays_of_truncated (h : decode bytes limits = .error (.truncated offset needed available)) :
    (readBody limits).Stays 0 bytes (.truncated offset needed available) := by
  rcases hbody : readBody limits ⟨0, bytes⟩ with ⟨c, pos, rest⟩ | ⟨fault, cursor⟩
  · rw [decode_of_readBody_ok hbody] at h
    split_ifs at h
    cases h
  · rw [decode_of_readBody_error hbody, Except.error.injEq] at h
    exact h ▸ (Reader.readBody_forward limits).error hbody

theorem truncated_unlimited
    (h : decode bytes limits = .error (.truncated offset needed available)) :
    decode bytes .unlimited = .error (.truncated offset needed available) := by
  rcases decode_restricts bytes limits with heq | ⟨fault, herror, hexceeded⟩
  · rw [← heq, h]
  · rw [h, Except.error.injEq] at herror
    subst herror
    cases hexceeded

theorem truncated_append
    (h : decode bytes limits = .error (.truncated offset needed available)) (more : List UInt8)
    (hmore : more.length < needed - available) :
    decode (bytes ++ more) limits
      = .error (.truncated offset needed (available + more.length)) := by
  obtain ⟨-, -, hstays⟩ := stays_of_truncated h
  obtain ⟨c, hc⟩ := hstays more hmore
  exact decode_of_readBody_error hc

/-- A truncation is found at the end of the input and tells what was missing there. It is told with
any fewer bytes behind the input, and no class that begins with the input ends before, whatever its
limits. -/
theorem decode_truncated (limits : Limits) (bytes : List UInt8) (offset needed available : Nat)
    (h : decode bytes limits = .error (.truncated offset needed available)) :
    offset + available = bytes.length ∧ available < needed
    ∧ (∀ more, more.length < needed - available → decode (bytes ++ more) limits
        = .error (.truncated offset needed (available + more.length)))
    ∧ ∀ more limits' c, decode (bytes ++ more) limits' = .ok c →
        offset + needed ≤ (bytes ++ more).length := by
  obtain ⟨hend, hlt, -⟩ := stays_of_truncated h
  rw [Nat.zero_add] at hend
  refine ⟨hend, hlt, truncated_append h, fun more limits' c hok => ?_⟩
  by_contra hshort
  rw [List.length_append] at hshort
  have hcut := truncated_append (truncated_unlimited h) more (by omega)
  rw [(decode_eq_ok_iff_unlimited.1 hok).1] at hcut
  cases hcut

/-- A text that claims two to the thirty-second bytes less one, of which there are two and then
three, and a class that is complete with three bytes more. -/
theorem decode_truncated_text :
    decode [0x24, 0x47, 0x4C, 0x52, 1, 1, 1, 3, 0xFF, 0xFF, 0xFF, 0xFF, 0x41, 0x42] {}
      = .error (.truncated 12 4294967295 2)
    ∧ decode [0x24, 0x47, 0x4C, 0x52, 1, 1, 1, 3, 0xFF, 0xFF, 0xFF, 0xFF, 0x41, 0x42, 0x43] {}
      = .error (.truncated 12 4294967295 3)
    ∧ decode [0x24, 0x47, 0x4C, 0x52, 1, 1] {} = .error (.truncated 6 1 0)
    ∧ 6 + 1 ≤ [0x24, 0x47, 0x4C, 0x52, 1, 1, 0, 0, 0].length := by
  have hlong : decode [0x24, 0x47, 0x4C, 0x52, 1, 1, 1, 3, 0xFF, 0xFF, 0xFF, 0xFF, 0x41, 0x42] {}
      = .error (.truncated 12 4294967295 2) := rfl
  have hheader : decode [0x24, 0x47, 0x4C, 0x52, 1, 1] {} = .error (.truncated 6 1 0) := rfl
  refine ⟨hlong, ?_, hheader, ?_⟩
  · exact (decode_truncated {} _ _ _ _ hlong).2.2.1 [0x43] (by decide)
  · exact (decode_truncated {} _ _ _ _ hheader).2.2.2 [0, 0, 0] {} _ rfl

end ClassLoading.Class
