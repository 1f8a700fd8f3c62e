import LoadRig.Preflight.Target
import LoadRig.Proofs.Url.RoundTrip
/-!
# The address of the health report

The scheme of a socket and that of the health report beside it have the same port of their own. So
the port that is used stays when the scheme is changed, whether it is written or not, and what is not
written for the one scheme need not be written for the other.

## Main definitions

* `LoadRig.Preflight.IsSocket` — what is asked of the address of a socket.
* `LoadRig.Preflight.Beside` — how the address of the health report goes with it.

## Main results

* `LoadRig.Preflight.socketUrl_eq_ok_iff` — which targets are taken.
* `LoadRig.Preflight.health_beside_socket` — where the health report of a target is asked for.
-/

namespace LoadRig.Preflight

variable {naming : Url.Naming} {target : String} {socket health : Url}

/-- What is asked of the address of a socket. -/
structure IsSocket (u : Url) : Prop where
  scheme : u.scheme = .ws ∨ u.scheme = .wss
  host : u.host.text ≠ []
  query : u.query = none
  fragment : u.fragment = none

/-- How the address of the health report goes with that of the socket: it is at the same place, over
the corresponding plain protocol. -/
structure Beside (socket health : Url) : Prop where
  plain : socket.scheme = .ws → health.scheme = .http
  secure : socket.scheme = .wss → health.scheme = .https
  host : health.host = socket.host
  user : health.user = socket.user
  password : health.password = socket.password
  port : health.port = socket.port
  path : health.pathText = "/health".toList
  query : health.query = none
  fragment : health.fragment = none

/-! ### Which targets are taken -/

/-- A target is taken if it is read as the address of a socket. -/
theorem socketUrl_eq_ok_iff (hn : naming.Lawful) :
    socketUrl target naming = .ok socket ↔
      Url.read target.toList naming = .ok (.web socket) ∧ IsSocket socket := by
  rw [socketUrl]
  constructor
  · intro h
    split at h
    · cases h
    · cases h
    · next u hread =>
      split at h
      · next hscheme =>
        split at h
        · cases h
        · next hplain =>
          cases h
          simp only [Bool.or_eq_true, not_or, Option.not_isSome_iff_eq_none] at hplain
          have hhost := Url.Host.text_ne_nil (Url.sound_of_read hn hread).host
          exact ⟨hread, hscheme, hhost, hplain.1, hplain.2⟩
      · cases h
  · rintro ⟨hread, hscheme, -, hquery, hfragment⟩
    rw [hread]
    simp [hscheme, hquery, hfragment]

/-! ### The health report -/

theorem readPath_health : Url.readPath "/health".toList = ["health".toList] := by decide

/-- The schemes of a socket and of the health report have the same port. -/
theorem defaultPort_healthUrl (hscheme : socket.scheme = .ws ∨ socket.scheme = .wss) :
    (healthUrl socket).scheme.defaultPort = socket.scheme.defaultPort := by
  rw [healthUrl]
  rcases hscheme with h | h <;> simp [h, Url.Scheme.defaultPort]

/-- Changing scheme and path gives the address of the health report: the port is kept, because it is
not the one of the new scheme either. -/
theorem healthUrl?_eq (hsocket : IsSocket socket)
    (hport : ∀ p ∈ socket.otherPort, p ≠ socket.scheme.defaultPort) :
    healthUrl? socket = some (healthUrl socket) := by
  have hname : Url.Scheme.ofName? ((if socket.scheme = .wss then "https" else "http").toList.map
      Char.toLower) = some (healthUrl socket).scheme := by
    rw [healthUrl]
    split <;> rfl
  have hkept : socket.otherPort.filter (· != (healthUrl socket).scheme.defaultPort) =
      socket.otherPort := by
    rw [defaultPort_healthUrl hsocket.scheme]
    cases hp : socket.otherPort with
    | none => rfl
    | some p => simp [hport p hp]
  simp only [healthUrl?, Url.setScheme?, hname, hkept, Option.bind_eq_bind, Option.bind_some,
    Url.setPath, readPath_health, Option.pure_def]
  simp [healthUrl, hsocket.query, hsocket.fragment]

theorem pathPart_health : Url.PathPart "health".toList where
  clean c hc := by
    have hall : "health".toList.all (Url.inPath · == false) = true := by decide
    exact beq_iff_eq.mp (List.all_eq_true.mp hall c hc)
  noSlash c hc := by
    have hall : "health".toList.all (fun c => c ≠ '/' ∧ c ≠ '\\') = true := by decide
    exact of_decide_eq_true (List.all_eq_true.mp hall c hc)
  notAbove := by decide
  notHere := by decide

/-- The address of the health report is one that can be read. -/
theorem sound_healthUrl (hsocket : IsSocket socket) (hs : socket.Sound naming) :
    (healthUrl socket).Sound naming where
  user := hs.user
  password := hs.password
  host := hs.host
  port := by
    rw [defaultPort_healthUrl hsocket.scheme]
    exact hs.port
  path_ne_nil := List.cons_ne_nil _ _
  path := fun p hp => by
    rw [List.mem_singleton.mp hp]
    exact pathPart_health
  query := nofun
  fragment := nofun

theorem beside_healthUrl (hsocket : IsSocket socket) : Beside socket (healthUrl socket) where
  plain h := by simp [healthUrl, h]
  secure h := by simp [healthUrl, h]
  host := rfl
  user := rfl
  password := rfl
  port := congrArg socket.otherPort.getD (defaultPort_healthUrl hsocket.scheme)
  path := rfl
  query := rfl
  fragment := rfl

/-- **The health report is asked for beside the socket.** A target is taken only if it is read as
the address of a socket; then there is an address for the health report, at the same place, and its
text is read back. -/
theorem health_beside_socket (hn : naming.Lawful) (h : socketUrl target naming = .ok socket) :
    Url.read target.toList naming = .ok (.web socket) ∧ IsSocket socket ∧
      ∃ health, healthUrl? socket = some health ∧ Beside socket health ∧
        Url.read health.text naming = .ok (.web health) := by
  obtain ⟨hread, hsocket⟩ := (socketUrl_eq_ok_iff hn).mp h
  have hs := Url.sound_of_read hn hread
  have hurl := healthUrl?_eq hsocket fun p hp => (hs.port p hp).2
  exact ⟨hread, hsocket, healthUrl socket, hurl, beside_healthUrl hsocket,
    Url.read_text hn (sound_healthUrl hsocket hs)⟩

/-- A target with blanks around it and a line break in its scheme, with user name and password, an
address of eight groups, the port of the scheme, and dots in its path. -/
theorem health_beside_written_target :
    let socket : Url :=
      { scheme := .wss, user := "me".toList, password := "a%40b".toList
        host := .ipv6 ⟨[0x2001, 0xdb8, 0, 0, 0, 0, 0, 1], rfl⟩, path := ["c".toList, []] }
    socketUrl " W\nSS://me:a@b@[2001:DB8::1]:443/a/../c/.\t" .ascii = .ok socket ∧
      Url.Naming.ascii.Lawful ∧
      ∃ health, healthUrl? socket = some health ∧ Beside socket health ∧
        Url.read health.text .ascii = .ok (.web health) := by
  have htaken : socketUrl " W\nSS://me:a@b@[2001:DB8::1]:443/a/../c/.\t" .ascii = .ok
      { scheme := .wss, user := "me".toList, password := "a%40b".toList
        host := .ipv6 ⟨[0x2001, 0xdb8, 0, 0, 0, 0, 0, 1], rfl⟩, path := ["c".toList, []] } := by
    decide +kernel
  exact ⟨htaken, Url.Naming.lawful_ascii,
    (health_beside_socket Url.Naming.lawful_ascii htaken).2.2⟩

end LoadRig.Preflight
