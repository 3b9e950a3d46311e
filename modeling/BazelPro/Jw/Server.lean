import BazelPro.C.Socket
import BazelPro.C.Strings
import BazelPro.Jw.Json

/-!
# The JW server

After `src/jw/srv.cc`: a receive loop that parses each datagram as a JSON document and answers
path requests and info messages; every third message that was understood is followed by a
global path. A failed assertion of the JSON library ends the process: the iteration is `none`.
-/

namespace BazelPro.Jw

open C

/-- The statics of the file. -/
structure Server where
  buffer : Mem
  clientAddr : Mem
  clientLen : Nat
  globalPathTick : BitVec 32
  blockTick : BitVec 32

/-- A datagram, and what the stack holds behind the local copy `b` while it is handled. -/
structure Arrival where
  datagram : Datagram
  beyond : List Byte

namespace Server

/-- The state at program start. -/
def init : Server where
  buffer := fun _ => 0
  clientAddr := fun _ => 0
  clientLen := 0
  globalPathTick := 0
  blockTick := 0

/-- `sendto(server_sockfd, bytes, bytes.length, 0, &client_addr, client_len)`. -/
def sent (s : Server) (bytes : List Byte) : Sent := ⟨bytes, load s.clientAddr 0 s.clientLen⟩

/-- The document of a `pathResp`: the id of the request, the result of this turn, and in every
other turn the blocked points. -/
def pathResp (id blockTick : BitVec 32) : Json :=
  let result : List (List Byte × Json) :=
    if blockTick.srem 4 = 0 then [(str "result", .int 0)]
    else if blockTick.srem 4 = 1 then [(str "result", .int 1)]
    else if blockTick.srem 4 = 2 then [(str "result", .int 2)]
    else []
  let block : List (List Byte × Json) :=
    if (blockTick + 1).srem 2 = 0 then
      [(str "block", .array ((List.range 5).map fun i => .point (700 + i) (800 + i)))]
    else []
  .object ([(str "type", .string (str "pathResp")), (str "id", .int id.toInt)] ++ result ++ block)

/-- The document of a `hotInfo`. -/
def hotInfo : Json :=
  let path := (List.range 5).map fun j => Json.string (str ("p" ++ toString (100 + j)))
  let data := (List.range 5).map fun (i : Nat) => Json.object
    [(str "name", .string (str ("ubot-" ++ toString (300 + i)))), (str "x", .int (10000 + i)),
      (str "y", .int (20000 + i)), (str "path", .array path)]
  .object [(str "type", .string (str "hotInfo")), (str "data", .array data)]

/-- The document of a `globalpath`. -/
def globalPath (globalPathTick : BitVec 32) : Json :=
  .object [(str "type", .string (str "globalpath")),
    (str "serverpathid", .int globalPathTick.toInt),
    (str "point", .array ((List.range 5).map fun i => .point (700 + i) (800 + i)))]

variable (json : Rapidjson)

/-- The `pathReq` branch: the response is built in the receive buffer. -/
def onPathReq (s : Server) (d : Json) : Option (Server × List Sent) := do
  let id ← (← d.member (str "id")).getInt
  let text := json.write (pathResp id s.blockTick)
  let buffer := strncpy s.buffer text text.length
  let s := { s with buffer := buffer, blockTick := s.blockTick + 1 }
  pure (s, [s.sent (load s.buffer 0 text.length)])

/-- The `info` branch, which copies to an array of its own and sends what it has copied. -/
def onInfo (s : Server) : Option (Server × List Sent) :=
  let text := json.write hotInfo
  some (s, [s.sent (strncpyChars text text.length)])

/-- The branches on the type of the message. -/
def dispatch (s : Server) (d : Json) (type : List Byte) : Option (Server × List Sent) :=
  if type = str "pathReq" then s.onPathReq json d
  else if type = str "info" then s.onInfo json
  else some (s, [])

/-- The global path that goes out with every third message. -/
def onTick (s : Server) : Server × List Sent :=
  let s := { s with globalPathTick := s.globalPathTick + 1 }
  if s.globalPathTick.srem 3 = 0 then
    let text := json.write (globalPath s.globalPathTick)
    (s, [s.sent (strncpyChars text text.length)])
  else (s, [])

/-- The local copy: 1024 zero bytes with the datagram copied over them. -/
def localCopy (s : Server) (len : Nat) : List Byte :=
  load (storeAt (fun _ => 0) 0 (load s.buffer 0 len)) 0 1024

/-- The text that the parser reads: up to the first NUL, inside the copy or behind it. -/
def text (s : Server) (len : Nat) (beyond : List Byte) : List Byte :=
  (s.localCopy len ++ beyond).takeWhile (· ≠ 0)

/-- `handle_msg(buffer, len)`. -/
def handleMsg (s : Server) (len : Nat) (beyond : List Byte) : Option (Server × List Sent) :=
  match json.parse (s.text len beyond) with
  | none => some (s, [])
  | some d => do
      match ← d.findMember (str "type") with
      | none => pure (s, [])
      | some itr =>
          let type ← itr.getString
          let (s, reply) ← s.dispatch json d type
          let (s, last) := s.onTick json
          pure (s, reply ++ last)

/-- `recvfrom(server_sockfd, buffer, 1024, 0, &client_addr, &client_len)`: the state that
`handle_msg` is called in. -/
def receive (s : Server) (a : Arrival) : Server :=
  let r := recvfrom s.buffer 1024 s.clientAddr s.clientLen a.datagram
  { s with buffer := r.buffer, clientAddr := r.addr, clientLen := r.addrlen }

/-- The result of that call. -/
def recvLen (s : Server) (a : Arrival) : Nat :=
  (recvfrom s.buffer 1024 s.clientAddr s.clientLen a.datagram).recvLen

/-- One iteration of the loop. -/
def step (s : Server) (a : Arrival) : Option (Server × List Sent) :=
  (s.receive a).handleMsg json (s.recvLen a) a.beyond

/-- What the loop sends in each iteration on a finite sequence of datagrams, up to a failed
assertion. -/
def run (s : Server) : List Arrival → List (List Sent)
  | [] => []
  | a :: rest =>
      match s.step json a with
      | none => []
      | some (s, sent) => sent :: s.run rest

end Server

end BazelPro.Jw
