import MiniCloudflared.Origin
import MiniCloudflared.RequestBody

namespace MiniCloudflared.ProxyStream

open Library Http1 HttpTypes Config ThirdParty Ingress Origin RequestBody

def HDR_UPGRADE : HeaderName :=
  ⟨ascii "cf-cloudflared-proxy-connection-upgrade", rfl, rfl⟩

def HDR_RESP_HEADERS : HeaderName :=
  ⟨ascii "cf-cloudflared-proxy-response-headers", rfl, rfl⟩

variable {β : Type}

def hostOf (req : Request β) : Str :=
  toStr (((req.headers.get HOST).bind HeaderValue.toStr).getD [])

def pathOf (req : Request β) : Str := toStr req.uri.path

def selectRule (t : CaseTable) (rules : List IngressRule) (req : Request β) : Option IngressRule :=
  resolve t rules (hostOf req) (pathOf req)

def rewriteUri (cr : Crates) (original : Uri) (serviceUrl : Str) : Except Error Uri := do
  let base ← cr.urlParse serviceUrl
  let path := (original.pathAndQuery.map PathAndQuery.asStr).getD (ascii "/")
  cr.uriParse (origin base.scheme (hostOrLocal base) (portOrHttp base) ++ path)

def isWithheld (k : HeaderName) : Bool :=
  k.bytes.head? == some 58 || k.bytes == ascii "host" || k == HDR_UPGRADE

def copyHeaders (headers : HeaderMap) : HeaderMap :=
  -- `insert`, not `append`: a repeated name keeps its last value only
  (headers.iter.filter (fun p => !isWithheld p.1)).foldl (fun m p => m.insert p.1 p.2) .empty

def originRequest (cr : Crates) (req : Request β) (service : Str) (body : Bytes) :
    Except Error (Request Bytes) := do
  let uri ← rewriteUri cr req.uri service
  return { method := req.method, uri := uri, headers := copyHeaders req.headers, body := body }

def serializeHeaders (headers : HeaderMap) : Bytes :=
  List.intercalate crlf
    ((headers.iter.filter (fun p => p.1 != CONTENT_LENGTH)).map
      (fun p => fieldLine p.1.bytes (p.2.toStr.getD [])))

def edgeHeaders (headers : HeaderMap) : Except Error HeaderMap :=
  match HeaderValue.ofBytes? (serializeHeaders headers) with
  | none => .error .http
  | some serialized =>
      .ok (.ofList (((headers.get CONTENT_LENGTH).toList.map (fun v => (CONTENT_LENGTH, v))) ++
        [(HDR_RESP_HEADERS, serialized)]))

/-- A call on the stream to the edge counts only when the stream takes it. -/
def handOver (e : Event) : Except Error Unit → Io Unit
  | .ok () => Traced.emit e
  | .error err => Traced.lift (.error err)

def replyToEdge (env : Env) (originResp : Response) : Io Unit := do
  let headers ← Traced.lift (edgeHeaders originResp.headers)
  handOver (.sendResponse originResp.status headers originResp.body.isEmpty) env.sendResponse
  if originResp.body ≠ [] then handOver (.sendData originResp.body true) env.sendData

def proxyTo (cr : Crates) (env : Env) (req : Request β) (rule : IngressRule) (body : Bytes) :
    Io Unit := do
  let originReq ← Traced.lift (originRequest cr req rule.service body)
  Traced.emit (.dispatch rule originReq)
  let originResp ← (dispatch cr env rule originReq).orElse badGateway
  replyToEdge env originResp

/-- What happens to one proxied request, or nothing while its body is still
being drained after so many polls. -/
def handleProxyStream (cr : Crates) (env : Env) (rules : List IngressRule) (fuel : Nat)
    (req : Request RecvStream) : Option (Io Unit) :=
  match selectRule cr.caseTable rules req with
  | none => some (replyToEdge env notFound)
  | some rule =>
      match drainBody fuel req.body with
      | none => none
      | some body => some (proxyTo cr env req rule body)

end MiniCloudflared.ProxyStream
