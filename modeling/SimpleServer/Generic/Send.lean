import SimpleServer.Utils.Bytes

/-!
# Sending on a connection (`generic/send.c`)

A write may take only a part of what it is given, so `send_data_to_connection` writes until all
bytes are out. What the writes return is what the server finds outside.

* `sendDataToConnection_ok`, `sendDataToConnection_starts`: what is on the connection afterwards.
* `sendPieces`: several pieces, one after the other.
-/

namespace SimpleServer.Generic

/-- What a call of `write_to_descriptor` returns: -1, or the number of bytes it took, which are
never more than it was given. -/
inductive WriteResult
  | failed
  | wrote (n : ℕ)
deriving Repr, DecidableEq

/-- A connection, with the bytes that are out. `results` is what the next writes return; the
writes behind them take all they are given. -/
structure Connection where
  written : Bytes
  results : List WriteResult
deriving Repr, DecidableEq

/-- The loop of `send_data_to_connection`, with the bytes that remain. Each round but the last
one takes a byte, so the writes that are not listed are never more than one. -/
def writeLoop (written : Bytes) : List WriteResult → Bytes → Connection × Bool
  | [], remaining => (⟨written ++ remaining, []⟩, true)
  | .failed :: results, _ => (⟨written, results⟩, false)
  | .wrote n :: results, remaining =>
    let wroteBytes := min n remaining.length
    if wroteBytes = remaining.length then (⟨written ++ remaining, results⟩, true)
    else if wroteBytes = 0 then (⟨written, results⟩, false)
    else writeLoop (written ++ remaining.take wroteBytes) results (remaining.drop wroteBytes)

def sendDataToConnection (connection : Connection) (toSend : Bytes) : Connection × Bool :=
  writeLoop connection.written connection.results toSend

/-- Pieces that are sent one after the other, until one cannot be sent. -/
def sendPieces (connection : Connection) : List Bytes → Bool × Connection
  | [] => (true, connection)
  | piece :: pieces =>
    match sendDataToConnection connection piece with
    | (connection, true) => sendPieces connection pieces
    | (connection, false) => (false, connection)

/-- No write fails, and none takes nothing. -/
def Healthy (connection : Connection) : Prop :=
  ∀ result ∈ connection.results, ∃ n, result = .wrote (n + 1)

/-- `connection'` is `connection` after a part of `toSend` was written, all of it if `ok`. -/
structure Sent (connection : Connection) (toSend : Bytes) (ok : Bool) (connection' : Connection) :
    Prop where
  starts : ∃ part, part <+: toSend ∧ connection'.written = connection.written ++ part
  complete : ok = true → connection'.written = connection.written ++ toSend
  healthy : Healthy connection → ok = true ∧ Healthy connection'

variable {connection : Connection} {toSend : Bytes}

theorem writeLoop_sent (written : Bytes) (results : List WriteResult) (remaining : Bytes) :
    Sent ⟨written, results⟩ remaining (writeLoop written results remaining).2
      (writeLoop written results remaining).1 := by
  induction results generalizing written remaining with
  | nil => exact ⟨⟨remaining, List.prefix_rfl, rfl⟩, fun _ => rfl, fun h => ⟨rfl, h⟩⟩
  | cons result results ih =>
    cases result with
    | failed =>
      refine ⟨⟨[], List.nil_prefix, (List.append_nil _).symm⟩, nofun, fun h => ?_⟩
      obtain ⟨n, hn⟩ := h .failed List.mem_cons_self
      cases hn
    | wrote n =>
      have hrest : Healthy ⟨written, .wrote n :: results⟩ → ∀ text, Healthy ⟨text, results⟩ :=
        fun h text result hresult => h result (List.mem_cons_of_mem _ hresult)
      unfold writeLoop
      dsimp only
      split_ifs with hall hnone
      · exact ⟨⟨remaining, List.prefix_rfl, rfl⟩, fun _ => rfl, fun h => ⟨rfl, hrest h _⟩⟩
      · refine ⟨⟨[], List.nil_prefix, (List.append_nil _).symm⟩, nofun, fun h => ?_⟩
        obtain ⟨m, hm⟩ := h (.wrote n) List.mem_cons_self
        cases hm
        omega
      · obtain ⟨hstarts, hcomplete, hhealthy⟩ :=
          ih (written ++ remaining.take (min n remaining.length))
            (remaining.drop (min n remaining.length))
        refine ⟨?_, fun hok => ?_, fun h => hhealthy (hrest h _)⟩
        · obtain ⟨part, ⟨behind, hpart⟩, hwritten⟩ := hstarts
          refine ⟨remaining.take (min n remaining.length) ++ part, ⟨behind, ?_⟩, ?_⟩
          · rw [List.append_assoc, hpart, List.take_append_drop]
          · rw [hwritten, List.append_assoc]
        · rw [hcomplete hok, List.append_assoc, List.take_append_drop]

/-- **Data that is sent** is out in full, if that succeeds. -/
theorem sendDataToConnection_sent (connection : Connection) (toSend : Bytes) :
    Sent connection toSend (sendDataToConnection connection toSend).2
      (sendDataToConnection connection toSend).1 :=
  writeLoop_sent connection.written connection.results toSend

/-- **Pieces that are sent** are out in their order. -/
theorem sendPieces_sent (connection : Connection) (pieces : List Bytes) :
    Sent connection pieces.flatten (sendPieces connection pieces).1
      (sendPieces connection pieces).2 := by
  induction pieces generalizing connection with
  | nil => exact ⟨⟨[], List.prefix_rfl, (List.append_nil _).symm⟩,
      fun _ => (List.append_nil _).symm, fun h => ⟨rfl, h⟩⟩
  | cons piece pieces ih =>
    obtain ⟨hstarts, hcomplete, hhealthy⟩ := sendDataToConnection_sent connection piece
    rw [sendPieces, List.flatten_cons]
    cases hsend : sendDataToConnection connection piece with
    | mk next ok =>
      rw [hsend] at hstarts hcomplete hhealthy
      cases ok with
      | false =>
        obtain ⟨part, hpart, hwritten⟩ := hstarts
        refine ⟨⟨part, hpart.trans (List.prefix_append _ _), hwritten⟩, nofun, fun h => ?_⟩
        cases (hhealthy h).1
      | true =>
        have hnext := hcomplete rfl
        obtain ⟨hstarts', hcomplete', hhealthy'⟩ := ih next
        refine ⟨?_, fun hok => ?_, fun h => hhealthy' (hhealthy h).2⟩
        · obtain ⟨part, hpart, hwritten⟩ := hstarts'
          refine ⟨piece ++ part, (List.prefix_append_right_inj piece).2 hpart, ?_⟩
          rw [hwritten, hnext, List.append_assoc]
        · rw [hcomplete' hok, hnext, List.append_assoc]

end SimpleServer.Generic
