import MiddleWhere.Data.Fields
import MiddleWhere.Net.MysqlClient
import MiddleWhere.Net.MysqlSafe

/-!
# Reading a handshake response back

The response of a client is laid out by the capabilities it names: each of three of them
moves every field after its own. The parser finds the fields of every layout, whatever
follows them, and it answers every buffer.
-/

namespace MiddleWhere.Net

/-! ## The layout -/

/-- What a client can put into a response: an authentication response with a length byte or,
without the capability for it, one without NUL. -/
structure ResponseFields where
  caps : ℕ
  fixed : Bytes
  username : Bytes
  authResponse : Bytes
  database : Bytes
  plugin : Bytes
  caps_word : caps < 2 ^ 32
  caps_protocol : hasCap caps clientProtocol41 = true
  fixed_length : fixed.length = 28
  username_nulFree : 0 ∉ username
  auth_fits : if hasCap caps clientSecureConnection then authResponse.length ≤ 255
    else 0 ∉ authResponse
  database_nulFree : 0 ∉ database
  plugin_nulFree : 0 ∉ plugin

def ResponseFields.authPart (f : ResponseFields) : Bytes :=
  if hasCap f.caps clientSecureConnection then
    [UInt8.ofNat f.authResponse.length] ++ f.authResponse
  else f.authResponse ++ [0]

def ResponseFields.databasePart (f : ResponseFields) : Bytes :=
  if hasCap f.caps clientConnectWithDb then f.database ++ [0] else []

def ResponseFields.pluginPart (f : ResponseFields) : Bytes :=
  if hasCap f.caps clientPluginAuth then f.plugin ++ [0] else []

/-- A Handshake Response 41; `fixed` is the packet size, the character set and the reserved
bytes. -/
def ResponseFields.encode (f : ResponseFields) : Bytes :=
  le 4 f.caps ++ (f.fixed ++
    ((f.username ++ [0]) ++ (f.authPart ++ (f.databasePart ++ f.pluginPart))))

def ResponseFields.parsed (f : ResponseFields) : ParsedHandshakeResponse where
  clientCaps := f.caps
  username := f.username
  authResponse := f.authResponse
  database := if hasCap f.caps clientConnectWithDb then some f.database else none
  authPlugin := if hasCap f.caps clientPluginAuth then some f.plugin else none

/-! ## Reading the fields -/

section
variable {buf text : Bytes} {cur : ℕ} {f : ResponseFields}

theorem readNulString_append (h : 0 ∉ text) (rest : Bytes) :
    readNulString (text ++ 0 :: rest) = some (text, text.length + 1) := by
  have hpos : (text ++ 0 :: rest).findIdx? (· == 0) = some text.length := by
    rw [List.findIdx?_append, List.findIdx?_eq_none_iff.mpr]
    · simp [List.findIdx?_cons]
    · intro b hb
      have hne : b ≠ 0 := fun hzero => h (hzero ▸ hb)
      simpa using hne
  rw [readNulString, hpos]
  simp

theorem nulStringAt_at {missing : String} (h : 0 ∉ text) (hat : At buf cur (text ++ [0])) :
    nulStringAt buf cur missing = .ok (text, cur + (text ++ [0]).length) := by
  obtain ⟨rest, hrest⟩ := hat.slice_rest (ε := HandshakeError)
  unfold nulStringAt
  rw [hrest, Outcome.ok_bind, List.append_assoc, List.singleton_append, readNulString_append h]
  simp [Outcome.ofOption]

theorem authResponseAt_at (hat : At buf cur f.authPart) :
    authResponseAt buf f.caps cur = .ok (f.authResponse, cur + f.authPart.length) := by
  have hfits := f.auth_fits
  have hle := hat.le
  unfold authResponseAt ResponseFields.authPart at *
  by_cases hsecure : hasCap f.caps clientSecureConnection
  · rw [if_pos hsecure] at hat hfits hle ⊢
    have hlength : (UInt8.ofNat f.authResponse.length).toNat = f.authResponse.length :=
      UInt8.toNat_ofNat_of_lt' (Nat.lt_of_le_of_lt hfits (by decide))
    have hindex := hat.left.index (ε := HandshakeError)
    have hslice := hat.right.slice (ε := HandshakeError)
    rw [List.length_append, List.length_singleton] at hle
    rw [List.length_singleton] at hslice
    rw [if_pos hsecure, if_neg (by omega), hindex, Outcome.ok_bind, hlength, if_neg (by omega),
      hslice, Outcome.ok_bind, List.length_append, List.length_singleton, Nat.add_assoc]
    rfl
  · rw [if_neg hsecure] at hat hfits ⊢
    rw [if_neg hsecure]
    exact nulStringAt_at hfits hat

theorem databaseAt_at (hat : At buf cur f.databasePart) :
    databaseAt buf f.caps cur = .ok (f.parsed.database, cur + f.databasePart.length) := by
  unfold databaseAt ResponseFields.parsed ResponseFields.databasePart at *
  by_cases hdb : hasCap f.caps clientConnectWithDb
  · rw [if_pos hdb] at hat
    simp only [if_pos hdb, nulStringAt_at f.database_nulFree hat, Outcome.ok_bind]
    rfl
  · simp only [if_neg hdb]
    rfl

theorem authPluginAt_at (hat : At buf cur f.pluginPart) :
    authPluginAt buf f.caps cur = .ok f.parsed.authPlugin := by
  unfold authPluginAt ResponseFields.parsed ResponseFields.pluginPart at *
  by_cases hplugin : hasCap f.caps clientPluginAuth
  · rw [if_pos hplugin] at hat
    simp only [if_pos hplugin, nulStringAt_at f.plugin_nulFree hat, Outcome.ok_bind]
    rfl
  · simp only [if_neg hplugin]
    rfl

end

/-! ## The round trip -/

theorem parseHandshakeResponse_encode (f : ResponseFields) (trailing : Bytes) :
    parseHandshakeResponse (f.encode ++ trailing) = .ok f.parsed := by
  have hat : At (f.encode ++ trailing) 0 f.encode := At.start f.encode trailing
  have hle4 : (le 4 f.caps).length = 4 := rfl
  have hcaps := hat.left.slice (ε := HandshakeError)
  have h₁ := hat.right
  have h₂ := h₁.right
  have huser := h₂.left
  have h₃ := h₂.right
  have hauth := h₃.left
  have h₄ := h₃.right
  have hdb := h₄.left
  have hplugin := h₄.right
  have hlong := huser.le
  rw [hle4, f.fixed_length] at huser h₃ hauth h₄ hdb hplugin hlong
  have hword : fromLe (le 4 f.caps) = f.caps := fromLe_le f.caps_word
  have hprotocol : (!hasCap f.caps clientProtocol41) = false := by
    rw [f.caps_protocol]
    rfl
  rw [hle4] at hcaps
  unfold parseHandshakeResponse
  rw [if_neg (by omega), hcaps, Outcome.ok_bind, hword]
  dsimp only
  rw [hprotocol, if_neg Bool.false_ne_true, nulStringAt_at f.username_nulFree huser]
  rw [Outcome.ok_bind, authResponseAt_at hauth, Outcome.ok_bind, databaseAt_at hdb,
    Outcome.ok_bind, authPluginAt_at hplugin]
  rfl

/-- Every buffer is answered, and every layout is read back. -/
theorem parseHandshakeResponse_inverts :
    (∀ buf, (parseHandshakeResponse buf).Safe) ∧
      ∀ (f : ResponseFields) (trailing : Bytes),
        parseHandshakeResponse (f.encode ++ trailing) = .ok f.parsed :=
  ⟨parseHandshakeResponse_safe, parseHandshakeResponse_encode⟩

end MiddleWhere.Net
