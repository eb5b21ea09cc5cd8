import LidarPublisher.Polling.Sweep
import LidarPublisher.Polling.Throughput
import LidarPublisher.Scan.Chunking
import LidarPublisher.Scan.Decoding
import LidarPublisher.Scan.IndexSafety
import LidarPublisher.Scan.LineIsolation
import LidarPublisher.Serial.Framing
import LidarPublisher.Serial.Reads
import LidarPublisher.Serial.Rearming
import LidarPublisher.Serial.Restart
import LidarPublisher.Serial.Retry
import LidarPublisher.Serial.Writing
import LidarPublisher.Sqlite.Integer
import LidarPublisher.Sqlite.Keywords
import LidarPublisher.Sqlite.RunParser
import LidarPublisher.System.Authorised
import LidarPublisher.System.Deaf
import LidarPublisher.System.Delivery
import LidarPublisher.System.Handles
import LidarPublisher.System.OpenSession
import LidarPublisher.System.Publishing
import LidarPublisher.System.Records
import LidarPublisher.System.Startup
import LidarPublisher.Token.Balance
import LidarPublisher.Token.Expiry
import LidarPublisher.Token.Monotone
import LidarPublisher.Token.Outcome
import LidarPublisher.Token.Owner
import LidarPublisher.Token.Renewal
import LidarPublisher.Udp.Duplicate
import LidarPublisher.Udp.Isolation
import LidarPublisher.Udp.Receiver
import LidarPublisher.Udp.Refusal
import LidarPublisher.Udp.RequestGrammar
import LidarPublisher.Udp.SessionExpiry
import LidarPublisher.Udp.TokenCache
