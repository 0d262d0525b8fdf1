import ProtoClient.Generation
import ProtoClient.TypeScript.Module

/-!
# The shared fetch module

All clients of a run call the server through one module, which they import as `fm`. Its text is
fixed but for the heading: it sends a request and reads the answer, as a whole or as a stream of
lines, writes the properties of a request as a query, and writes bytes in base 64.

## Main definitions

* `fetchModuleText stylingCheck`: the text of the module
* `typeScript`: the renderer that writes modules and the shared fetch module in TypeScript
-/

namespace ProtoClient

open Text

/-- The lines of the shared fetch module below the heading. -/
def fetchModuleLines : List String := [
  "export interface InitReq extends RequestInit \x7b",
  "  pathPrefix?: string",
  "\x7d",
  "",
  "export function fetchReq<I, O>(path: string, init?: InitReq): Promise<O> \x7b",
  "  const \x7bpathPrefix, ...req\x7d = init || \x7b\x7d",
  "",
  "  const url = pathPrefix ? `$\x7bpathPrefix\x7d$\x7bpath\x7d` : path",
  "",
  "  return fetch(url, req).then(r => r.json().then((body: O) => \x7b",
  "    if (!r.ok) \x7b throw body; \x7d",
  "    return body;",
  "  \x7d)) as Promise<O>",
  "\x7d",
  "",
  "// NotifyStreamEntityArrival is a callback that will be called on streaming entity arrival",
  "export type NotifyStreamEntityArrival<T> = (resp: T) => void",
  "",
  "/**",
  " * fetchStreamingRequest is able to handle grpc-gateway server side streaming",
  " * @param path the URL path",
  " * @param callback called once per decoded entity",
  " * @param init the fetch init options",
  " */",
  "export async function fetchStreamingRequest<S, R>(path: string, callback?: NotifyStreamEntityArrival<R>, init?: InitReq) \x7b",
  "  const \x7bpathPrefix, ...req\x7d = init || \x7b\x7d",
  "  const url = pathPrefix ? `$\x7bpathPrefix\x7d$\x7bpath\x7d` : path",
  "  const result = await fetch(url, req)",
  "  // needs to use the .ok to check the status of HTTP status code",
  "  // http other than 200 will not throw an error, instead the .ok will become false.",
  "  if (!result.ok) \x7b",
  "    const resp = await result.json()",
  "    const errMsg = resp.error && resp.error.message ? resp.error.message : \"\"",
  "    throw new Error(errMsg)",
  "  \x7d",
  "",
  "  if (!result.body) \x7b",
  "    throw new Error(\"response doesnt have a body\")",
  "  \x7d",
  "",
  "  await result.body",
  "    .pipeThrough(new TextDecoderStream())",
  "    .pipeThrough<R>(getNewLineDelimitedJSONDecodingStream<R>())",
  "    .pipeTo(getNotifyEntityArrivalSink((e: R) => \x7b",
  "      if (callback) \x7b",
  "        callback(e)",
  "      \x7d",
  "    \x7d))",
  "",
  "  // wait for the streaming to finish and return the success respond",
  "  return",
  "\x7d",
  "",
  "/**",
  " * JSONStringStreamController represents the transform controller that's able to transform the incoming",
  " * new line delimited json content stream into entities and able to push the entity to the down stream",
  " */",
  "interface JSONStringStreamController<T> extends TransformStreamDefaultController \x7b",
  "  buf?: string",
  "  pos?: number",
  "  enqueue: (s: T) => void",
  "\x7d",
  "",
  "/**",
  " * getNewLineDelimitedJSONDecodingStream returns a TransformStream that's able to handle new line delimited json stream content into parsed entities",
  " */",
  "function getNewLineDelimitedJSONDecodingStream<T>(): TransformStream<string, T> \x7b",
  "  return new TransformStream(\x7b",
  "    start(controller: JSONStringStreamController<T>) \x7b",
  "      controller.buf = ''",
  "      controller.pos = 0",
  "    \x7d,",
  "",
  "    transform(chunk: string, controller: JSONStringStreamController<T>) \x7b",
  "      if (controller.buf === undefined) \x7b",
  "        controller.buf = ''",
  "      \x7d",
  "      if (controller.pos === undefined) \x7b",
  "        controller.pos = 0",
  "      \x7d",
  "      controller.buf += chunk",
  "      while (controller.pos < controller.buf.length) \x7b",
  "        if (controller.buf[controller.pos] === '\\n') \x7b",
  "          const line = controller.buf.substring(0, controller.pos)",
  "          const response = JSON.parse(line)",
  "          controller.enqueue(response.result)",
  "          controller.buf = controller.buf.substring(controller.pos + 1)",
  "          controller.pos = 0",
  "        \x7d else \x7b",
  "          ++controller.pos",
  "        \x7d",
  "      \x7d",
  "    \x7d",
  "  \x7d)",
  "\x7d",
  "",
  "/**",
  " * getNotifyEntityArrivalSink takes the NotifyStreamEntityArrival callback and returns",
  " * a WritableStream that calls it for every entity written",
  " */",
  "function getNotifyEntityArrivalSink<T>(notifyCallback: NotifyStreamEntityArrival<T>) \x7b",
  "  return new WritableStream<T>(\x7b",
  "    write(entity: T) \x7b",
  "      notifyCallback(entity)",
  "    \x7d",
  "  \x7d)",
  "\x7d",
  "",
  "type Primitive = string | boolean | number;",
  "type RequestPayload = Record<string, unknown>;",
  "type FlattenedRequestPayload = Record<string, Primitive | Array<Primitive>>;",
  "",
  "/**",
  " * Checks if given value is a plain object",
  " * Logic copied and adapted from below source:",
  " * https://github.com/char0n/ramda-adjunct/blob/master/src/isPlainObj.js",
  " */",
  "function isPlainObject(value: unknown): boolean \x7b",
  "  const isObject =",
  "    Object.prototype.toString.call(value).slice(8, -1) === \"Object\";",
  "  const isObjLike = value !== null && isObject;",
  "",
  "  if (!isObjLike || !isObject) \x7b",
  "    return false;",
  "  \x7d",
  "",
  "  const proto = Object.getPrototypeOf(value);",
  "",
  "  const hasObjectConstructor =",
  "    typeof proto === \"object\" &&",
  "    proto.constructor === Object.prototype.constructor;",
  "",
  "  return hasObjectConstructor;",
  "\x7d",
  "",
  "/**",
  " * Checks if given value is of a primitive type",
  " */",
  "function isPrimitive(value: unknown): boolean \x7b",
  "  return [\"string\", \"number\", \"boolean\"].some(t => typeof value === t);",
  "\x7d",
  "",
  "/**",
  " * Checks if given primitive is zero-value",
  " */",
  "function isZeroValuePrimitive(value: Primitive): boolean \x7b",
  "  return value === false || value === 0 || value === \"\";",
  "\x7d",
  "",
  "/**",
  " * Flattens a deeply nested request payload and returns an object",
  " * with only primitive values and non-empty array of primitive values",
  " * as per https://github.com/googleapis/googleapis/blob/master/google/api/http.proto",
  " */",
  "function flattenRequestPayload<T extends RequestPayload>(",
  "  requestPayload: T,",
  "  path: string = \"\"",
  "): FlattenedRequestPayload \x7b",
  "  return Object.keys(requestPayload).reduce(",
  "    (acc: T, key: string): T => \x7b",
  "      const value = requestPayload[key];",
  "      const newPath = path ? [path, key].join(\".\") : key;",
  "",
  "      const isNonEmptyPrimitiveArray =",
  "        Array.isArray(value) &&",
  "        value.every(v => isPrimitive(v)) &&",
  "        value.length > 0;",
  "",
  "      const isNonZeroValuePrimitive =",
  "        isPrimitive(value) && !isZeroValuePrimitive(value as Primitive);",
  "",
  "      let objectToMerge = \x7b\x7d;",
  "",
  "      if (isPlainObject(value)) \x7b",
  "        objectToMerge = flattenRequestPayload(value as RequestPayload, newPath);",
  "      \x7d else if (isNonZeroValuePrimitive || isNonEmptyPrimitiveArray) \x7b",
  "        objectToMerge = \x7b [newPath]: value \x7d;",
  "      \x7d",
  "",
  "      return \x7b ...acc, ...objectToMerge \x7d;",
  "    \x7d,",
  "    \x7b\x7d as T",
  "  ) as FlattenedRequestPayload;",
  "\x7d",
  "",
  "/**",
  " * Renders a deeply nested request payload into a string of URL search",
  " * parameters by first flattening the request payload and then removing keys",
  " * which are already present in the URL path.",
  " */",
  "export function renderURLSearchParams<T extends RequestPayload>(",
  "  requestPayload: T,",
  "  urlPathParams: string[] = []",
  "): string \x7b",
  "  const flattenedRequestPayload = flattenRequestPayload(requestPayload);",
  "",
  "  const urlSearchParams = Object.keys(flattenedRequestPayload).reduce(",
  "    (acc: string[][], key: string): string[][] => \x7b",
  "      // key should not be present in the url path as a parameter",
  "      const value = flattenedRequestPayload[key];",
  "      if (urlPathParams.find(f => f === key)) \x7b",
  "        return acc;",
  "      \x7d",
  "      return Array.isArray(value)",
  "        ? [...acc, ...value.map(m => [key, m.toString()])]",
  "        : (acc = [...acc, [key, value.toString()]]);",
  "    \x7d,",
  "    [] as string[][]",
  "  );",
  "",
  "  return new URLSearchParams(urlSearchParams).toString();",
  "\x7d",
  "",
  "const b64Chars = \"ABCDEFGHIJKLMNOPQRSTUVWXYZabcdefghijklmnopqrstuvwxyz0123456789+/\";",
  "",
  "function b64Encode(buf: Uint8Array, start: number, end: number): string \x7b",
  "  let out = \"\";",
  "  let i = start;",
  "  for (; i + 2 < end; i += 3) \x7b",
  "    const n = (buf[i] << 16) | (buf[i + 1] << 8) | buf[i + 2];",
  "    out += b64Chars[(n >> 18) & 63] + b64Chars[(n >> 12) & 63] + b64Chars[(n >> 6) & 63] + b64Chars[n & 63];",
  "  \x7d",
  "  const rest = end - i;",
  "  if (rest === 1) \x7b",
  "    const n = buf[i] << 16;",
  "    out += b64Chars[(n >> 18) & 63] + b64Chars[(n >> 12) & 63] + \"==\";",
  "  \x7d else if (rest === 2) \x7b",
  "    const n = (buf[i] << 16) | (buf[i + 1] << 8);",
  "    out += b64Chars[(n >> 18) & 63] + b64Chars[(n >> 12) & 63] + b64Chars[(n >> 6) & 63] + \"=\";",
  "  \x7d",
  "  return out;",
  "\x7d",
  "",
  "/**",
  " * JSON.stringify replacer: bytes fields are sent base64 encoded",
  " */",
  "export function replacer(key: any, value: any): any \x7b",
  "  if (value && value.constructor === Uint8Array) \x7b",
  "    return b64Encode(value, 0, value.length);",
  "  \x7d",
  "",
  "  return value;",
  "\x7d"]

/-- **The text of the shared fetch module.** -/
def fetchModuleText (stylingCheck : Bool) : String :=
  lines (headingLines stylingCheck ++ fetchModuleLines)

/-- **The renderer of TypeScript**, which never fails. -/
def typeScript : Renderer where
  renderModule module := .ok module.text
  renderFetch stylingCheck := .ok (fetchModuleText stylingCheck)

end ProtoClient
