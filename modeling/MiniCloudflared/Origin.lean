import MiniCloudflared.Ingress
import MiniCloudflared.Library.Traced

namespace MiniCloudflared.Origin

open Library Http1 HttpTypes Config ThirdParty

inductive Transport
  | tcp
  | tls
  deriving DecidableEq

/-- The calls that the handler of one proxied request makes: to `dispatch`, to
the network, and to the stream that leads back to the edge. -/
inductive Event
  | dispatch (rule : IngressRule) (req : Request Bytes)
  | connect (transport : Transport) (addr : Bytes)
  | write (data : Bytes)
  | sendResponse (status : StatusCode) (headers : HeaderMap) (endOfStream : Bool)
  | sendData (data : Bytes) (endOfStream : Bool)

/-- The answers of the world: of the origin, which may depend on the bytes
written to it, and of the stream to the edge. -/
structure Env where
  connect : Bytes → Except Error Unit
  writeAll : Bytes → Except Error Unit
  readToEnd : Bytes → Bytes → Except Error Bytes
  sendResponse : Except Error Unit
  sendData : Except Error Unit

abbrev Io (α : Type) := Traced Error Event α

def call {α : Type} (e : Event) (answer : Except Error α) : Io α := do
  Traced.emit e
  Traced.lift answer

def badGateway : Response := ⟨BAD_GATEWAY, .empty, ascii "502 Bad Gateway\n"⟩

def notFound : Response := ⟨NOT_FOUND, .empty, ascii "404 No matching ingress rule\n"⟩

def helloPage : Bytes :=
  ascii ("<!DOCTYPE html><html><body><h1>mini-cloudflared</h1>" ++
    "<p>Hello World! The tunnel is working.</p></body></html>")

def TEXT_HTML : HeaderValue := ⟨ascii "text/html", rfl⟩

def helloWorldResponse : Response :=
  ⟨OK, .ofList [(CONTENT_TYPE, TEXT_HTML)], helloPage⟩

def statusText (cr : Crates) (status : StatusCode) : Bytes :=
  decimal status.code ++ ascii " " ++
    (cr.canonicalReason status.code).getD (ascii "<unknown status code>")

def hostOrLocal (u : Url) : Bytes := u.host.getD (ascii "127.0.0.1")

def portOrHttp (u : Url) : Nat := u.portOrKnownDefault.getD 80

def address (u : Url) : Bytes := hostOrLocal u ++ ascii ":" ++ decimal (portOrHttp u)

def isHopByHop (k : HeaderName) : Bool :=
  [ascii "host", ascii "connection", ascii "proxy-connection", ascii "transfer-encoding",
    ascii "upgrade"].contains k.bytes

def headerText (p : HeaderName × HeaderValue) : Bytes :=
  if isHopByHop p.1 then []
  else
    match p.2.toStr with
    | none => []
    | some v => fieldLine p.1.bytes v ++ crlf

def requestHead (addr : Bytes) (req : Request Bytes) : Bytes :=
  let path := (req.uri.pathAndQuery.map PathAndQuery.asStr).getD (ascii "/")
  req.method.bytes ++ ascii " " ++ path ++ ascii " HTTP/1.1\r\nHost: " ++ addr ++ crlf ++
    req.headers.iter.flatMap headerText ++
    (if req.body = [] then []
      else ascii "Content-Length: " ++ decimal req.body.length ++ crlf) ++
    ascii "Connection: close\r\n\r\n"

def parseHttp1Response (cr : Crates) (raw : Bytes) : Except Error Response :=
  match cr.httparse 64 raw with
  | .error e => .error e
  | .ok .incomplete => .ok badGateway
  | .ok (.complete headerLen code headers) =>
      -- all that follows the head is the body, however it is framed
      buildResponse (code.getD 502) headers (raw.drop headerLen)

def forwardHttp (cr : Crates) (env : Env) (originUrl : Str) (req : Request Bytes) : Io Response := do
  let origin ← Traced.lift (cr.urlParse originUrl)
  let addr := address origin
  call (.connect .tcp addr) (env.connect addr)
  let raw := requestHead addr req
  call (.write raw) (env.writeAll raw)
  if req.body ≠ [] then call (.write req.body) (env.writeAll req.body)
  let buf ← Traced.lift (env.readToEnd addr (raw ++ req.body))
  Traced.lift (parseHttp1Response cr buf)

def dispatch (cr : Crates) (env : Env) (rule : IngressRule) (req : Request Bytes) : Io Response :=
  match rule.statusCode with
  | some code =>
      let status := (StatusCode.fromU16 code).getD NOT_FOUND
      pure ⟨status, .empty, statusText cr status⟩
  | none =>
      if rule.service = "hello_world".toList then pure helloWorldResponse
      else forwardHttp cr env rule.service req

end MiniCloudflared.Origin
