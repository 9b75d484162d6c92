/-
Hosts that name unix-domain sockets (lib/common/url.c).

The host "unix:" and a path stands in brackets in the authority of a URL, and
is turned into the `sun_path` of a socket address. `hostToSun_eq_some_iff`
gives the paths for which this is done.
-/
import H2o.Token

namespace H2o.Url

open List

/-- `sizeof(sa->sun_path)` -/
def sunPathSize : Nat := 108

/-- `h2o_url_host_to_sun`: what is copied to `sun_path`, or `none` for its two
errors. `sizeof` counts the terminator of "unix:", and the difference of
lengths is a `size_t`. -/
def hostToSun (host : Bytes) : Option Bytes :=
  if host.take 5 ≠ ascii "unix:" then none
  else if ((host.length : Int) - 6 - 1) % 2 ^ 64 ≥ sunPathSize then none
  else some (host.drop 5)

/-- The authority and the host of `h2o_url_init_with_sun_path`. -/
def initWithSunPath (sunPath : Bytes) : Bytes × Bytes :=
  let authority := ascii "[unix:" ++ sunPath ++ ascii "]"
  (authority, (authority.drop 1).take (authority.length - 2))

-- ==== what is accepted

/-- What is accepted as the name of a socket: paths from two octets on, up to
one more than `sun_path` has. -/
theorem hostToSun_eq_some_iff {host path : Bytes}
    (hlen : host.length < 2 ^ 64) :
    hostToSun host = some path ↔
      host = ascii "unix:" ++ path ∧ 2 ≤ path.length ∧
        path.length ≤ sunPathSize + 1 := by
  have hunix : (ascii "unix:").length = 5 := rfl
  constructor
  · intro h
    unfold hostToSun at h
    split at h
    next => cases h
    next hprefixed =>
      split at h
      next => cases h
      next hshort =>
        cases h
        have hsplit : host = ascii "unix:" ++ host.drop 5 := by
          rw [← not_not.1 hprefixed, take_append_drop]
        have hge := congrArg length hsplit
        rw [length_append] at hge
        rw [sunPathSize] at hshort ⊢
        refine ⟨hsplit, ?_, ?_⟩ <;> omega
  · rintro ⟨rfl, hge, hle⟩
    rw [sunPathSize] at hle
    have hshort : ¬ (((ascii "unix:" ++ path).length : Int) - 6 - 1) % 2 ^ 64 ≥
        sunPathSize := by
      rw [length_append, sunPathSize]
      omega
    rw [hostToSun, if_neg (by rw [not_not]; exact take_left' hunix),
      if_neg hshort, drop_left' hunix]

theorem initWithSunPath_host (path : Bytes) :
    (initWithSunPath path).2 = ascii "unix:" ++ path := by
  have hlen : (ascii "[unix:" ++ path ++ ascii "]").length - 2 =
      (ascii "unix:" ++ path).length := by
    rw [length_append, length_append, length_append]
    change 6 + path.length + 1 - 2 = 5 + path.length
    omega
  rw [initWithSunPath, hlen]
  exact take_left

/-- A path of one octet is refused, and one that fills `sun_path` is
accepted, as is a longer one. -/
theorem sun_path_limits : hostToSun (initWithSunPath (ascii "a")).2 = none ∧
      hostToSun (ascii "unix:" ++ replicate 109 0x61) =
        some (replicate 109 0x61) := by
  decide +kernel

/-- The round trip is exact for the paths from two octets on, and what is
written fits with its terminator exactly where the path has neither the size of
`sun_path` nor one octet more. -/
theorem sun_path_fits_iff (host path : Bytes) (hhost : host.length < 2 ^ 64)
    (hpath : path.length < sunPathSize) :
    (hostToSun (initWithSunPath path).2 = some path ↔ 2 ≤ path.length) ∧
    ((∀ p, hostToSun host = some p → p.length + 1 ≤ sunPathSize) ↔
      ∀ p, host = ascii "unix:" ++ p →
        p.length ≠ sunPathSize ∧ p.length ≠ sunPathSize + 1) := by
  rw [sunPathSize] at *
  refine ⟨?_, fun h p hp => ?_, fun h p hp => ?_⟩
  · have hlen : (initWithSunPath path).2.length < 2 ^ 64 := by
      rw [initWithSunPath_host, length_append, show (ascii "unix:").length =
        5 from rfl]
      omega
    rw [hostToSun_eq_some_iff hlen, initWithSunPath_host, sunPathSize]
    exact ⟨fun h => h.2.1, fun h => ⟨rfl, h, by omega⟩⟩
  · -- a path of one of the two sizes is accepted
    have hsome := fun hge hle =>
      h p ((hostToSun_eq_some_iff hhost).2 ⟨hp, hge, hle⟩)
    rw [sunPathSize] at hsome
    omega
  · obtain ⟨hsplit, -, hle⟩ := (hostToSun_eq_some_iff hhost).1 hp
    have hne := h p hsplit
    rw [sunPathSize] at hle
    omega

/-- A short path, and a host whose path fills `sun_path` but for the
terminator. -/
theorem sun_path_fits_at_limit :
    hostToSun (initWithSunPath (ascii "/s")).2 = some (ascii "/s") ∧
      ∀ p, hostToSun (ascii "unix:" ++ replicate 107 0x61) = some p →
        p.length + 1 ≤ sunPathSize := by
  have h := sun_path_fits_iff (ascii "unix:" ++ replicate 107 0x61)
    (ascii "/s") (by decide) (by decide)
  refine ⟨h.1.2 (by decide), h.2.2 fun p hp => ?_⟩
  rw [← append_cancel_left hp, length_replicate]
  decide

end H2o.Url
