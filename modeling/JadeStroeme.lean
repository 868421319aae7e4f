import JadeStroeme.Wert
import JadeStroeme.Akkumulator
import JadeStroeme.Position
import JadeStroeme.Datei
import JadeStroeme.Verteiler
import JadeStroeme.Schreiben
import JadeStroeme.Format
import JadeStroeme.Zuruecklegen
import JadeStroeme.Lesen
import JadeStroeme.Ausgabe
import JadeStroeme.Rahmen
import JadeStroeme.Rundweg
import JadeStroeme.Dateizugriff
import JadeStroeme.Kopieren
