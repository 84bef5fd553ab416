import OpenApiClient.Client.Basic
import OpenApiClient.Php.ClassFile
import OpenApiClient.Php.Literal

/-!
The classes that every client has, whatever its document says: the connection settings, the base of
all classes of operations, and the exception for a status that is not documented.
-/

namespace OpenApiClient.Php

namespace Configuration

def constants (c : Client) : List Lines :=
  let servers := c.servers.map (string ·.url)
  [["public const API_VERSION = " ++ string c.info.version ++ ";"],
    ["public const DEFAULT_HOST = " ++ servers.head?.getD (string "") ++ ";"],
    "/** @var list<string> */" :: enclose "public const SERVERS = [" (servers.map (· ++ ",")) "];"]

def constructor : Lines :=
  comment [some "@param array<string, string> $defaultHeaders"] ++
    constructorLines ["public readonly string $host = self::DEFAULT_HOST,",
      "public readonly array $defaultHeaders = [],", "public readonly ?string $accessToken = null,"]

def setters : List Lines := [
  braced "public function withHost(string $host): self"
    ["return new self($host, $this->defaultHeaders, $this->accessToken);"],
  braced "public function withHeader(string $name, string $value): self"
    ["return new self($this->host, [$name => $value] + $this->defaultHeaders, $this->accessToken);"],
  braced "public function withAccessToken(?string $accessToken): self"
    ["return new self($this->host, $this->defaultHeaders, $accessToken);"]]

end Configuration

-- The connection settings; the first server is the one that is used by default.
def configurationFile (root : String) (c : Client) : ClassFile where
  root
  sub := none
  name := "Configuration"
  preamble := comment [some ("Connection settings for the " ++ commentText c.info.title ++ " client.")]
  keyword := "final class"
  heritage := ""
  members := spaced
    (Configuration.constants c ++ [Configuration.constructor] ++ Configuration.setters)

namespace AbstractApi

def constructor : Lines :=
  constructorLines ["protected readonly ClientInterface $httpClient,",
    "protected readonly RequestFactoryInterface $requestFactory,",
    "protected readonly StreamFactoryInterface $streamFactory,",
    "protected readonly Configuration $config = new Configuration(),"]

def sendParameters : Lines := ["string $method,", "string $path,", "array $pathParams = [],",
  "array $query = [],", "array $headers = [],", "array $cookies = [],", "mixed $body = null,",
  "?string $contentType = null,"]

-- The path with its parameters, on the host.
def address : Lines :=
  clause "foreach ($pathParams as $name => $value)"
    ["$path = str_replace('\x7b' . $name . '\x7d', rawurlencode($this->scalar($value)), $path);"] ++
  ["", "$uri = rtrim($this->config->host, '/') . $path;",
    "$query = array_filter($query, static fn ($value) => $value !== null);"] ++
  clause "if ($query !== [])"
    ["$uri .= '?' . http_build_query(array_map($this->queryValue(...), $query), '', '&', " ++
      "PHP_QUERY_RFC3986);"]

def requestHeaders : Lines :=
  ["$request = $this->requestFactory->createRequest($method, $uri)",
    "    ->withHeader('Accept', 'application/json');"] ++
  clause "foreach ($headers + $this->config->defaultHeaders as $name => $value)"
    (clause "if ($value !== null)"
      ["$request = $request->withHeader($name, $this->scalar($value));"]) ++
  clause "if ($this->config->accessToken !== null)"
    ["$request = $request->withHeader('Authorization', 'Bearer ' . $this->config->accessToken);"]

def requestCookies : Lines :=
  ["$pairs = [];"] ++
  clause "foreach ($cookies as $name => $value)"
    (clause "if ($value !== null)"
      ["$pairs[] = $name . '=' . rawurlencode($this->scalar($value));"]) ++
  clause "if ($pairs !== [])"
    ["$request = $request->withHeader('Cookie', implode('; ', $pairs));"]

def requestBody : Lines :=
  clause "if ($contentType !== null)"
    ["$request = $request",
      "    ->withHeader('Content-Type', $contentType)",
      "    ->withBody($this->streamFactory->createStream(json_encode($body, JSON_THROW_ON_ERROR)));"]

def send : Lines :=
  comment (["$pathParams", "$query", "$headers", "$cookies"].map
    (some <| "@param array<string, mixed> " ++ ·)) ++
  enclose "protected function send(" sendParameters "): ResponseInterface \x7b" ++
  indent (spaced [address, requestHeaders, requestCookies, requestBody,
    ["return $this->httpClient->sendRequest($request);"]]) ++
  ["\x7d"]

def decode : Lines :=
  braced "protected function decode(ResponseInterface $response): mixed"
    (["$payload = (string) $response->getBody();"] ++
      clause "if ($payload === '')" ["return null;"] ++
      ["", "return json_decode($payload, true, 512, JSON_THROW_ON_ERROR);"])

def returnMatch (arms : Lines) : Lines := enclose "return match (true) \x7b" arms "\x7d;"

-- A function on the plain form of a value.
def onPlain (head : String) (arms : Lines) : Lines :=
  braced head (["$value = $this->plain($value);", ""] ++ returnMatch arms)

def scalar : Lines :=
  onPlain "protected function scalar(mixed $value): string"
    ["is_bool($value) => $value ? 'true' : 'false',",
      "is_array($value) => implode(',', array_map($this->scalar(...), $value)),",
      "default => (string) $value,"]

def queryValue : Lines :=
  onPlain "private function queryValue(mixed $value): mixed"
    ["is_bool($value) => $value ? 'true' : 'false',",
      "is_array($value) => array_map($this->queryValue(...), $value),",
      "default => $value,"]

def plain : Lines :=
  braced "private function plain(mixed $value): mixed" <|
    returnMatch ["$value instanceof \\BackedEnum => $value->value,",
      "$value instanceof \\JsonSerializable => $value->jsonSerialize(),",
      "default => $value,"]

end AbstractApi

-- The base of all classes of operations.
def abstractApiFile (root : String) : ClassFile where
  root
  sub := none
  name := "AbstractApi"
  preamble :=
    ["use Psr\\Http\\Client\\ClientInterface;",
      "use Psr\\Http\\Message\\RequestFactoryInterface;",
      "use Psr\\Http\\Message\\ResponseInterface;",
      "use Psr\\Http\\Message\\StreamFactoryInterface;",
      ""] ++
    comment [some "Request plumbing shared by the API classes."]
  keyword := "abstract class"
  heritage := ""
  members := spaced [AbstractApi.constructor, AbstractApi.send, AbstractApi.decode,
    AbstractApi.scalar, AbstractApi.queryValue, AbstractApi.plain]

-- The exception for a status that is not documented.
def apiExceptionFile (root : String) : ClassFile where
  root
  sub := none
  name := "ApiException"
  preamble :=
    comment [some "Raised when a response carries a status code the API does not document."]
  keyword := "final class"
  heritage := " extends \\RuntimeException"
  members :=
    comment [some "@param array<string, list<string>> $headers"] ++
      enclose "public function __construct("
        ["public readonly int $statusCode,", "public readonly mixed $payload = null,",
          "public readonly array $headers = [],"] ") \x7b" ++
      indent ["parent::__construct(sprintf('Unexpected response status %d', $statusCode), " ++
        "$statusCode);"] ++
      ["\x7d"]

end OpenApiClient.Php
